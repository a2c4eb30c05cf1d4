/-
The listings of commands.cpp as texts that are read again. The lines of the sell orders are the orders of
the book, and whoever reads them gets every order with all that is shown of it; the items of a user are
read off between the quotes.
-/
import AuctionHouse.Server.LogFile
import AuctionHouse.Server.Notices
import AuctionHouse.Store.Listing
import Mathlib.Tactic.IntervalCases

namespace AuctionHouse

open Storage Text

def hash : UInt8 := 35

/-! ## Reading -/

/-- The expiration time, which ends a line, is of two words. -/
def readExpirationTime (line : Bytes) : Option (Bytes × Bytes) := do
  let (line, time) ← splitLast space line
  let (line, date) ← splitLast space line
  some (line, date ++ space :: time)

/-- The price and the type stand before the expiration time. -/
def readTerms (line : Bytes) : Option (Bytes × Int32 × SellOrderType) := do
  let (line, _until) ← splitLast space line
  let (line, word) ← splitLast space line
  let (line, type) ←
    if word = text "auction" then do
      let (line, _on) ← splitLast space line
      let (line, _funds) ← splitLast space line
      some (line, .auction)
    else some (line, .immediate)
  let (line, price) ← splitLast space line
  let (line, _for) ← splitLast space line
  let (price, _) ← (fromChars price).toOption
  some (line, price, type)

/-- An order as a line of the listing says it. -/
def SellOrderInfo.read (line : Bytes) : Option SellOrderInfo := do
  let (_, line) ← splitFirst hash line
  let (id, line) ← splitFirst colon line
  let (id, _) ← (fromChars id).toOption
  let (_, line) ← splitFirst space line
  let (sellerName, line) ← splitFirst space line
  let (_is, line) ← splitFirst space line
  let (_selling, line) ← splitFirst space line
  let (count, line) ← splitFirst space line
  let (line, expirationTime) ← readExpirationTime line
  let (goods, price, type) ← readTerms line
  if count = text "a" then some { id, sellerName, itemName := goods, quantity := 1, price, expirationTime, type }
  else do
    let (quantity, _) ← (fromChars count).toOption
    some { id, sellerName, itemName := goods.take (goods.length - 3), quantity, price, expirationTime, type }

/-- The orders of a listing; its first line says what follows. -/
def readListing (response : Bytes) : Option (List SellOrderInfo) :=
  match splitLines newline response with
  | (_ :: lines, []) => lines.mapM SellOrderInfo.read
  | _ => none

/-! ## Dates -/

/-- The words of a date have digits, minus signs and colons. -/
def Clock (word : Bytes) : Prop := ∀ c ∈ word, isDigit c = true ∨ c = minus ∨ c = colon

namespace Clock

variable {a b : Bytes}

theorem append (ha : Clock a) (hb : Clock b) : Clock (a ++ b) := fun c hc =>
  (List.mem_append.1 hc).elim (ha c) (hb c)

theorem not_mem {c : UInt8} (ha : Clock a) (hc : isDigit c = false ∧ c ≠ minus ∧ c ≠ colon) : c ∉ a := by
  intro hm
  rcases ha c hm with h | h | h
  · rw [hc.1] at h
    cases h
  · exact hc.2.1 h
  · exact hc.2.2 h

theorem space (ha : Clock a) : AuctionHouse.space ∉ a := ha.not_mem (by decide)

theorem newline (ha : Clock a) : AuctionHouse.newline ∉ a := ha.not_mem (by decide)

end Clock

theorem digitOf_digit (n : ℤ) : isDigit (digitOf n) = true := by
  have h0 : 0 ≤ n % 10 := Int.emod_nonneg _ (by omega)
  have h1 : n % 10 < 10 := Int.emod_lt_of_pos _ (by omega)
  unfold digitOf
  generalize n % 10 = r at h0 h1
  interval_cases r <;> decide

/-- Two digits of a number. -/
def twoDigits (n : ℤ) : Bytes := [digitOf (n / 10), digitOf n]

theorem clock_twoDigits (n : ℤ) : Clock (twoDigits n) := by
  intro c hc
  rcases List.mem_cons.1 hc with rfl | hc
  · exact .inl (digitOf_digit _)
  · rw [List.mem_singleton.1 hc]
    exact .inl (digitOf_digit n)

theorem dateText_words (iJD : ℤ) : ∃ date time, dateText iJD = date ++ space :: time ∧ Clock date ∧ Clock time := by
  obtain ⟨year, month, day, hymd⟩ : ∃ year month day, computeYMD iJD = (year, month, day) := ⟨_, _, _, rfl⟩
  obtain ⟨h, m, s, hd⟩ : ∃ h m s, dateText iJD =
      ((if year < 0 then text "-" else []) ++ twoDigits (|year| / 100) ++ twoDigits |year| ++ text "-" ++
        twoDigits month ++ text "-" ++ twoDigits day) ++
      space :: (twoDigits h ++ text ":" ++ twoDigits m ++ text ":" ++ twoDigits s) := by
    refine ⟨(iJD + 43200000) % 86400000 / 60000 / 60, (iJD + 43200000) % 86400000 / 60000 % 60,
      (iJD + 43200000) % 86400000 % 60000 / 1000, ?_⟩
    unfold dateText
    rw [hymd]
    simp only [List.append_assoc]
    rfl
  have hminus : Clock (text "-") := fun c hc => .inr (.inl (List.mem_singleton.1 hc))
  have hcolon : Clock (text ":") := fun c hc => .inr (.inr (List.mem_singleton.1 hc))
  have hsign : Clock (if year < 0 then text "-" else []) := by
    split
    · exact hminus
    · exact fun c hc => by cases hc
  refine ⟨_, _, hd, ?_, ?_⟩
  · exact (((((hsign.append (clock_twoDigits _)).append (clock_twoDigits _)).append hminus).append
      (clock_twoDigits _)).append hminus).append (clock_twoDigits _)
  · exact (((clock_twoDigits h).append hcolon).append (clock_twoDigits m)).append hcolon |>.append (clock_twoDigits s)

theorem words_of_datetime {t : ℤ} {s : Bytes} (h : datetime t = some s) :
    ∃ date time, s = date ++ space :: time ∧ Clock date ∧ Clock time := by
  unfold datetime at h
  simp only at h
  split at h
  · exact Option.some.inj h ▸ dateText_words _
  · cases h

/-! ## Words -/

namespace SellOrderInfo

variable (o : SellOrderInfo)

/-- What is written of the quantity. -/
def count : Bytes := if o.quantity = 1 then text "a" else decimal o.quantity

/-- The item name as it is written after the quantity. -/
def goods : Bytes := if o.quantity = 1 then o.itemName else o.itemName ++ text "(s)"

/-- The words before the expiration time. -/
def market : Bytes := match o.type with
  | .auction => text "funds" ++ space :: (text "on" ++ space :: text "auction")
  | .immediate => text "funds"

theorem format_eq : text "- " ++ o.format =
    text "- " ++ hash :: (decimal o.id ++ colon :: ([] ++ space :: (o.sellerName ++ space :: (text "is" ++ space ::
      (text "selling" ++ space :: (o.count ++ space :: (o.goods ++ space :: (text "for" ++ space ::
        (decimal o.price ++ space :: (o.market ++ space :: (text "until" ++ space :: o.expirationTime))))))))))) := by
  have h1 : text "#" = [hash] := by decide
  have h2 : text ": " = [colon, space] := by decide
  have h3 : text " is selling a " = space :: (text "is" ++ space :: (text "selling" ++ space :: (text "a" ++ [space]))) := by
    decide
  have h4 : text " is selling " = space :: (text "is" ++ space :: (text "selling" ++ [space])) := by decide
  have h5 : text " for " = space :: (text "for" ++ [space]) := by decide
  have h6 : text "(s) for " = text "(s)" ++ space :: (text "for" ++ [space]) := by decide
  have h7 : text " funds " = space :: (text "funds" ++ [space]) := by decide
  have h8 : text "on auction " = text "on" ++ space :: (text "auction" ++ [space]) := by decide
  have h9 : text "until " = text "until" ++ [space] := by decide
  have h10 : text " " = [space] := by decide
  unfold format count goods market
  by_cases hq : o.quantity = 1
  · rcases o.type with _ | _
    · simp only [hq, if_true, h1, h2, h3, h5, h7, h9, List.append_assoc, List.cons_append, List.nil_append]
    · simp only [hq, if_true, h1, h2, h3, h5, h7, h8, h9, List.append_assoc, List.cons_append, List.nil_append]
  · rcases o.type with _ | _
    · simp only [hq, if_false, h1, h2, h4, h6, h7, h9, h10, List.append_assoc, List.cons_append, List.nil_append]
    · simp only [hq, if_false, h1, h2, h4, h6, h7, h8, h9, h10, List.append_assoc, List.cons_append, List.nil_append]

theorem readExpirationTime_append {t : ℤ} {expirationTime : Bytes} (h : datetime t = some expirationTime) (line : Bytes) :
    readExpirationTime (line ++ space :: expirationTime) = some (line, expirationTime) := by
  obtain ⟨date, time, rfl, hdate, htime⟩ := words_of_datetime h
  have hassoc : line ++ space :: (date ++ space :: time) = (line ++ space :: date) ++ space :: time := by simp
  unfold readExpirationTime
  simp only [hassoc, splitLast_append htime.space, splitLast_append hdate.space, Option.bind_eq_bind, Option.bind_some]

theorem readTerms_append (line : Bytes) : readTerms (line ++ space :: (text "for" ++ space :: (decimal o.price ++
    space :: (o.market ++ space :: text "until")))) = some (line, o.price, o.type) := by
  have hfor : space ∉ text "for" := by decide
  have huntil : space ∉ text "until" := by decide
  have hfunds : space ∉ text "funds" := by decide
  have hon : space ∉ text "on" := by decide
  have hauction : space ∉ text "auction" := by decide
  have hprice := space_not_mem_decimal o.price
  unfold readTerms market
  rcases o.type with _ | _
  · have hassoc : line ++ space :: (text "for" ++ space :: (decimal o.price ++ space :: (text "funds" ++ space ::
        text "until"))) = (((line ++ space :: text "for") ++ space :: decimal o.price) ++ space :: text "funds") ++
          space :: text "until" := by simp
    have hne : text "funds" ≠ text "auction" := by decide
    simp only [hassoc, splitLast_append huntil, splitLast_append hfunds, splitLast_append hprice, splitLast_append hfor,
      if_neg hne, fromChars_decimal, Except.toOption, Option.bind_eq_bind, Option.bind_some]
  · have hassoc : line ++ space :: (text "for" ++ space :: (decimal o.price ++ space :: (text "funds" ++ space ::
        (text "on" ++ space :: text "auction") ++ space :: text "until"))) =
          (((((line ++ space :: text "for") ++ space :: decimal o.price) ++ space :: text "funds") ++
            space :: text "on") ++ space :: text "auction") ++ space :: text "until" := by simp
    simp only [hassoc, splitLast_append huntil, splitLast_append hauction, splitLast_append hon, splitLast_append hfunds,
      splitLast_append hprice, splitLast_append hfor, if_true, fromChars_decimal, Except.toOption, Option.bind_eq_bind,
      Option.bind_some]

/-- A line that was written of an order is read as this order. -/
theorem read_format {t : ℤ} (ht : datetime t = some o.expirationTime) (hseller : space ∉ o.sellerName) :
    read (text "- " ++ o.format) = some o := by
  have hhash : hash ∉ text "- " := by decide
  have hcolon : colon ∉ decimal o.id := not_mem_decimal (by decide) (by decide) o.id
  have his : space ∉ text "is" := by decide
  have hselling : space ∉ text "selling" := by decide
  have hcount : space ∉ o.count := by
    unfold count
    split
    · decide
    · exact space_not_mem_decimal o.quantity
  have hassoc : o.goods ++ space :: (text "for" ++ space :: (decimal o.price ++ space :: (o.market ++ space ::
      (text "until" ++ space :: o.expirationTime)))) = (o.goods ++ space :: (text "for" ++ space :: (decimal o.price ++
        space :: (o.market ++ space :: text "until")))) ++ space :: o.expirationTime := by simp
  rw [format_eq, hassoc]
  unfold read
  simp only [splitFirst_append hhash, splitFirst_append hcolon, splitFirst_append hseller, splitFirst_append his,
    splitFirst_append hselling, splitFirst_append hcount, splitFirst_append List.not_mem_nil, fromChars_decimal,
    Except.toOption, readExpirationTime_append ht, readTerms_append, Option.bind_eq_bind, Option.bind_some]
  unfold count goods
  by_cases hq : o.quantity = 1
  · simp only [hq, if_true]
    exact congrArg some (by rw [← hq])
  · have hne : decimal o.quantity ≠ text "a" := by
      intro h
      have hdigit := (numeral_decimal o.quantity).mem (h ▸ List.mem_singleton_self _ : (97 : UInt8) ∈ decimal o.quantity)
      exact absurd hdigit (by decide)
    have hname : (o.itemName ++ text "(s)").take ((o.itemName ++ text "(s)").length - 3) = o.itemName := by
      have hlength : (text "(s)").length = 3 := by decide
      rw [List.length_append, hlength, Nat.add_sub_cancel, List.take_left]
    simp only [hq, if_false, hne, fromChars_decimal, hname, Option.bind_some]

theorem newline_not_mem_format {t : ℤ} (ht : datetime t = some o.expirationTime) (hseller : newline ∉ o.sellerName)
    (hitem : newline ∉ o.itemName) : newline ∉ text "- " ++ o.format := by
  have hdecimal := not_mem_decimal (c := newline) (by decide) (by decide)
  have hcount : newline ∉ o.count := by
    unfold count
    split
    · decide
    · exact hdecimal o.quantity
  have hgoods : newline ∉ o.goods := by
    unfold goods
    split
    · exact hitem
    · exact fun h => (List.mem_append.1 h).elim hitem (by decide)
  have hmarket : newline ∉ o.market := by
    unfold market
    split
    · decide
    · decide
  have htime : newline ∉ o.expirationTime := by
    obtain ⟨date, time, hwords, hdate, htime⟩ := words_of_datetime ht
    rw [hwords, List.mem_append, List.mem_cons, not_or, not_or]
    exact ⟨hdate.newline, by decide, htime.newline⟩
  have hspace : newline ≠ space := by decide
  rw [format_eq]
  simp only [List.mem_append, List.mem_cons, List.not_mem_nil, not_or, hspace, not_false_eq_true, true_and]
  exact ⟨by decide, by decide, hdecimal _, by decide, hseller, by decide, by decide, hcount, hgoods, by decide,
    hdecimal _, hmarket, by decide, htime⟩

end SellOrderInfo

/-! ## Lines -/

/-- The response to `view_sell_orders`. -/
def listing (orders : List SellOrderInfo) : Bytes :=
  text "Sell orders:\n" ++ orders.flatMap fun order => text "- " ++ order.format ++ text "\n"

theorem listing_lines (orders : List SellOrderInfo) :
    listing orders = unlines newline (text "Sell orders:" :: orders.map fun o => text "- " ++ o.format) := by
  unfold listing unlines
  rw [List.flatMap_cons, List.flatMap_map]
  exact congrArg₂ _ (by decide) (List.flatMap_congr fun o _ => rfl)

/-- A listing is read as the orders it was made of. -/
theorem readListing_listing {orders : List SellOrderInfo} (ht : ∀ o ∈ orders, ∃ t, datetime t = some o.expirationTime)
    (hseller : ∀ o ∈ orders, space ∉ o.sellerName ∧ newline ∉ o.sellerName)
    (hitem : ∀ o ∈ orders, newline ∉ o.itemName) : readListing (listing orders) = some orders := by
  have hsplit : splitLines newline (listing orders) =
      (text "Sell orders:" :: orders.map (fun o => text "- " ++ o.format), []) := by
    rw [listing_lines, ← List.append_nil (unlines _ _)]
    refine splitLines_unlines (fun line hl => ?_) List.not_mem_nil
    rcases List.mem_cons.1 hl with rfl | hl
    · decide
    · obtain ⟨o, ho, rfl⟩ := List.mem_map.1 hl
      obtain ⟨t, ht⟩ := ht o ho
      exact o.newline_not_mem_format ht (hseller o ho).2 (hitem o ho)
  unfold readListing
  rw [hsplit]
  simp only
  clear hsplit
  induction orders with
  | nil => rfl
  | cons o orders ih =>
    have hread : SellOrderInfo.read (text "- " ++ o.format) = some o := by
      obtain ⟨t, ht⟩ := ht o List.mem_cons_self
      exact o.read_format ht (hseller o List.mem_cons_self).1
    rw [List.map_cons, List.mapM_cons, hread, ih (fun p hp => ht p (List.mem_cons_of_mem _ hp))
      (fun p hp => hseller p (List.mem_cons_of_mem _ hp)) fun p hp => hitem p (List.mem_cons_of_mem _ hp)]
    rfl

/-- A line end in an item name makes two orders of one. -/
example : (readListing (listing [{
    id := 1
    sellerName := text "bob"
    itemName := text "sword for 9 funds until 1970-01-01 00:00:00\n- #2: eve is selling a ring"
    quantity := 1
    price := 5
    expirationTime := text "1970-01-01 00:05:00"
    type := .immediate }])).map (List.map SellOrderInfo.id) = some [1, 2] := by decide +kernel

/-! ## The book -/

/-- An entry of the listing says all of its order, with the names up to the first NUL. -/
structure ShowsRow (t : Tables) (o : SellOrderRow) (e : SellOrderInfo) : Prop extends ShowsOrder o e where
  seller : ∃ u ∈ t.users, u.id = o.sellerId ∧ e.sellerName = columnText u.username
  item : ∃ i ∈ t.items, i.id = o.itemId ∧ e.itemName = columnText i.name
  type : e.type = .immediate ↔ o.buyerId = some o.sellerId
  expirationTime : datetime o.expirationTime = some e.expirationTime

/-- What is listed is the book. -/
theorem listed_rows {st : Storage} {db : Database} (hi : Invariant st db.toTables)
    (hpositive : ∀ o ∈ db.sellOrders, 1 ≤ o.id) (hids : db.sellOrdersSeq ≤ intMax) {orders : List SellOrderInfo}
    (h : (selectSellOrders db.toTables).mapM sellOrderInfo = some orders) :
    List.Forall₂ (ShowsRow db.toTables) db.sellOrders orders := by
  have hfound : ∀ p ∈ selectSellOrders db.toTables, ∃ e, sellOrderInfo p = some e := by
    intro p hp
    rcases he : sellOrderInfo p with _ | e
    · rw [mapM_none.2 ⟨p, hp, he⟩] at h
      cases h
    · exact ⟨e, rfl⟩
  obtain ⟨_, hm, hall⟩ := mapM_found hfound
  obtain rfl := Option.some.inj (hm.symm.trans h)
  rw [← selectSellOrders_spec db.valid, List.forall₂_map_left_iff]
  refine ((List.forall₂_and_left _ _).2 ⟨fun p hp => hp, hall⟩).imp ?_
  rintro ⟨⟨o, u⟩, i⟩ e ⟨hp, he⟩
  obtain ⟨hou, hi', hitem⟩ := Sql.mem_innerJoin.1 hp
  obtain ⟨ho, hu, hseller⟩ := Sql.mem_innerJoin.1 hou
  obtain ⟨s, hs, rfl⟩ := Option.map_eq_some_iff.1 he
  have hid : (columnInt o.id).toInt = o.id :=
    columnInt_of_fits (by have := hpositive o ho; omega) ((hi.issued o ho).trans hids)
  refine ⟨⟨hid, quantity_fits db.valid hi ho, price_fits db.valid hi ho⟩, ⟨u, hu, of_decide_eq_true hseller, rfl⟩,
    ⟨i, hi', of_decide_eq_true hitem, rfl⟩, ?_, hs⟩
  rw [← type_innerInfo db.valid ho, ← type_listed ho]

/-- A request to view the sell orders is answered by the listing. -/
theorem viewSellOrders_reply {user : User} {unixNow : ℤ} {request response : Bytes} {s : SharedState}
    (hp : parseRequest request = .command .viewSellOrders)
    (hr : (processRequest user unixNow request s).1 = .reply response) :
    ∃ orders, (selectSellOrders s.db.toTables).mapM sellOrderInfo = some orders ∧ response = listing orders := by
  unfold processRequest at hr
  rw [hp] at hr
  replace hr : (AnyCommand.executeViewSellOrders s).1 = .reply response := hr
  unfold AnyCommand.executeViewSellOrders at hr
  rw [state_bind, onStorage_query Storage.viewSellOrders fun _ hc => (query_after _ hc).1] at hr
  unfold Storage.viewSellOrders Sql.Connection.idle at hr
  rw [query_calm, Sql.outcome_ok] at hr
  simp only at hr
  generalize hm : (selectSellOrders s.db.toTables).mapM sellOrderInfo = m at hr
  rcases m with _ | orders
  · cases hr
  · exact ⟨orders, rfl, (Response.reply.inj hr).symm⟩

theorem not_mem_columnText {s : Bytes} {c : UInt8} (h : c ∉ s) : c ∉ columnText s := fun hm =>
  h ((List.takeWhile_sublist _).subset hm)

namespace Output

theorem run_soldOnce {events : List OutputEvent} {s : Output}
    (h : Machine.run step (started Storage.initial Database.initial) events = some s) :
    ∃ t, SharedState.SameBooks s.state t ∧ t.SoldOnce := by
  have hfirst : SharedState.initial.SoldOnce :=
    ⟨initial_invariant, (fun _ ho => by cases ho), fun _ => List.nodup_nil, fun _ _ hn => by cases hn⟩
  obtain ⟨t, ⟨_, rfl, hsame⟩, ht⟩ := (server_simulation.comp SharedState.sameBooks_simulation).safe
    (P := SharedState.SoldOnce) ⟨_, rfl, ⟨rfl, rfl, rfl⟩⟩
    (fun _ _ hs => Machine.run_keeps (fun _ _ _ hi h => hi.next h) hfirst hs) h
  exact ⟨t, hsame, ht⟩

/-- In every state the server can be in, whoever asks for the sell orders reads in the answer exactly
the book: every order once, with its id, seller, item, quantity, price, type and expiration time. The
names that users chose must not break the lines, and those of users be of one word. -/
theorem listing_read (events : List OutputEvent) {s : Output}
    (h : Machine.run step (started Storage.initial Database.initial) events = some s)
    (hids : s.state.db.sellOrdersSeq ≤ intMax)
    (husers : ∀ u ∈ s.state.db.users, space ∉ u.username ∧ newline ∉ u.username)
    (hitems : ∀ i ∈ s.state.db.items, newline ∉ i.name) {user : User} {unixNow : ℤ} {request response : Bytes}
    (hp : parseRequest request = .command .viewSellOrders)
    (hr : (processRequest user unixNow request s.state).1 = .reply response) :
    ∃ orders, readListing response = some orders ∧
      List.Forall₂ (ShowsRow s.state.db.toTables) s.state.db.sellOrders orders := by
  obtain ⟨orders, horders, rfl⟩ := viewSellOrders_reply hp hr
  obtain ⟨t, hsame, ht⟩ := run_soldOnce h
  have hpositive : ∀ o ∈ s.state.db.sellOrders, 1 ≤ o.id := by
    rw [hsame.db]
    exact ht.positive
  have hshows := listed_rows (run_invariant h).2 hpositive hids horders
  have hentry := (forall₂_mem hshows).2
  refine ⟨orders, readListing_listing (fun e he => ?_) (fun e he => ?_) (fun e he => ?_), hshows⟩
  · obtain ⟨o, -, hshow⟩ := hentry e he
    exact ⟨_, hshow.expirationTime⟩
  · obtain ⟨o, -, hshow⟩ := hentry e he
    obtain ⟨u, hu, -, hname⟩ := hshow.seller
    rw [hname]
    exact ⟨not_mem_columnText (husers u hu).1, not_mem_columnText (husers u hu).2⟩
  · obtain ⟨o, -, hshow⟩ := hentry e he
    obtain ⟨i, hi, -, hname⟩ := hshow.item
    rw [hname]
    exact not_mem_columnText (hitems i hi)

/-- alice has ten funds and five swords. -/
def swordRun : List OutputEvent := depositRun ++ [.request 0 0 (text "deposit sword 5"), .write 0 256]

/-- She sells the swords by auction. -/
def sellRun : List OutputEvent := swordRun ++ [.request 0 0 (text "sell auction sword 5 20"), .write 0 256]

theorem listing_read_sell : ∃ s, Machine.run step (started Storage.initial Database.initial) sellRun = some s ∧
    ∃ orders, readListing (text
        "Sell orders:\n- #1: alice is selling 5 sword(s) for 20 funds on auction until 1970-01-01 00:05:00\n") =
      some orders ∧ List.Forall₂ (ShowsRow s.state.db.toTables) s.state.db.sellOrders orders := by
  have hrun : (Machine.run step (started Storage.initial Database.initial) sellRun).map
      (fun s => (s.state.db.sellOrdersSeq, s.state.db.users.map (·.username), s.state.db.items.map (·.name),
        (processRequest ⟨1, text "alice"⟩ 0 (text "view_sell_orders") s.state).1)) =
      some (1, [text "alice"], [text "funds", text "sword"], .reply (text
        "Sell orders:\n- #1: alice is selling 5 sword(s) for 20 funds on auction until 1970-01-01 00:05:00\n")) := by
    decide +kernel
  obtain ⟨s, hs, h⟩ := Option.map_eq_some_iff.1 hrun
  simp only [Prod.mk.injEq] at h
  obtain ⟨hseq, husers, hitems, hr⟩ := h
  refine ⟨s, hs, listing_read sellRun hs (by rw [hseq]; decide) (fun u hu => ?_) (fun i hi => ?_) rfl hr⟩
  · have hname : u.username ∈ [text "alice"] := husers ▸ List.mem_map_of_mem hu
    rw [List.mem_singleton.1 hname]
    decide
  · have hname : i.name ∈ [text "funds", text "sword"] := hitems ▸ List.mem_map_of_mem hi
    have hall : ∀ name ∈ [text "funds", text "sword"], newline ∉ name := by decide
    exact hall _ hname

end Output

/-! ## Items -/

def quote : UInt8 := 34

/-- Item names and what stands after them: a comma, a space and the quantity. -/
def readPairs : List Bytes → Option (List UserItemInfo)
  | [] => some []
  | [_] => none
  | itemName :: quantity :: pieces => do
    let (quantity, _) ← (fromChars (quantity.drop 2)).toOption
    let items ← readPairs pieces
    some ({ itemName, quantity } :: items)

/-- The items of a response to `view_items`. -/
def readItems (response : Bytes) : Option (List UserItemInfo) := readPairs (response.splitOn quote).tail

/-- The response to `view_items`. -/
def itemList (items : List UserItemInfo) : Bytes :=
  text "Items: [" ++ List.intercalate (text ", ") (items.map UserItemInfo.format) ++ text "]"

theorem readPairs_cons {itemName pieces : Bytes} {quantity : Int32} {rest : List Bytes} :
    readPairs (itemName :: (text ", " ++ decimal quantity ++ (text ")" ++ pieces)) :: rest) =
      (readPairs rest).map fun items => { itemName, quantity } :: items := by
  have hdrop : (text ", " ++ decimal quantity ++ (text ")" ++ pieces)).drop 2 =
      decimal quantity ++ (text ")" ++ pieces) := by
    rw [List.append_assoc]
    rfl
  have hread : fromChars (decimal quantity ++ (text ")" ++ pieces)) = .ok (quantity, text ")" ++ pieces) :=
    fromChars_ok.2 (readNumeral_some.2 ⟨_, rfl, numeral_decimal quantity, fun c hc => by
      obtain rfl := Option.some.inj hc
      decide⟩)
  rw [readPairs, hdrop, hread]
  rcases readPairs rest with _ | items
  · rfl
  · rfl

/-- Cut at the quotes, the items are their names and what stands between. -/
theorem splitOn_items : ∀ (items : List UserItemInfo) (i : UserItemInfo) (before : Bytes), quote ∉ before →
    (∀ j ∈ i :: items, quote ∉ j.itemName) → ∃ pieces,
      (before ++ (List.intercalate (text ", ") ((i :: items).map UserItemInfo.format) ++ text "]")).splitOn quote =
        (before ++ text "(") :: pieces ∧ readPairs pieces = some (i :: items) := by
  have hformat : ∀ (i : UserItemInfo) (before after : Bytes), quote ∉ before → quote ∉ i.itemName →
      (before ++ (i.format ++ after)).splitOn quote =
        (before ++ text "(") :: i.itemName :: (text ", " ++ decimal i.quantity ++ (text ")" ++ after)).splitOn quote := by
    intro i before after hbefore hname
    have hopen : quote ∉ before ++ text "(" := fun h => (List.mem_append.1 h).elim hbefore (by decide)
    have hassoc : before ++ (i.format ++ after) = (before ++ text "(") ++ quote :: (i.itemName ++ quote ::
        (text ", " ++ decimal i.quantity ++ (text ")" ++ after))) := by
      have h1 : text "(\"" = text "(" ++ [quote] := by decide
      have h2 : text "\", " = quote :: text ", " := by decide
      unfold UserItemInfo.format
      simp only [h1, h2, List.append_assoc, List.cons_append, List.nil_append]
    rw [hassoc, List.splitOn_append_cons_self_of_not_mem hopen, List.splitOn_append_cons_self_of_not_mem hname]
  intro items
  induction items with
  | nil =>
    intro i before hbefore hnames
    have hname := hnames i List.mem_cons_self
    have hlast : quote ∉ text ", " ++ decimal i.quantity ++ (text ")" ++ text "]") := by
      simp only [List.mem_append, not_or]
      exact ⟨⟨by decide, not_mem_decimal (by decide) (by decide) _⟩, by decide, by decide⟩
    refine ⟨[i.itemName, text ", " ++ decimal i.quantity ++ (text ")" ++ text "]")], ?_, ?_⟩
    · rw [List.map_cons, List.map_nil, List.intercalate_singleton, hformat i before _ hbefore hname,
        List.splitOn_eq_singleton hlast]
    · rw [readPairs_cons]
      rfl
  | cons j items ih =>
    intro i before hbefore hnames
    have hname := hnames i List.mem_cons_self
    have hnext : quote ∉ text ", " ++ decimal i.quantity ++ (text ")" ++ text ", ") := by
      simp only [List.mem_append, not_or]
      exact ⟨⟨by decide, not_mem_decimal (by decide) (by decide) _⟩, by decide, by decide⟩
    obtain ⟨pieces, hsplit, hread⟩ := ih j _ hnext fun k hk => hnames k (List.mem_cons_of_mem _ hk)
    refine ⟨i.itemName :: (text ", " ++ decimal i.quantity ++ (text ")" ++ (text ", " ++ text "("))) :: pieces, ?_, ?_⟩
    · have hassoc : before ++ (List.intercalate (text ", ") ((i :: j :: items).map UserItemInfo.format) ++ text "]") =
          before ++ (i.format ++ (text ", " ++
            (List.intercalate (text ", ") ((j :: items).map UserItemInfo.format) ++ text "]"))) := by
        simp only [List.map_cons, List.intercalate_cons_cons, List.append_assoc]
      rw [hassoc, hformat i before _ hbefore hname]
      simp only [List.append_assoc] at hsplit ⊢
      rw [hsplit]
    · rw [readPairs_cons, hread]
      rfl

/-- A list of items is read as the items it was made of. -/
theorem readItems_itemList {items : List UserItemInfo} (h : ∀ i ∈ items, quote ∉ i.itemName) :
    readItems (itemList items) = some items := by
  unfold readItems itemList
  have hfirst : quote ∉ text "Items: [" := by decide
  rcases items with _ | ⟨i, items⟩
  · rw [List.map_nil, List.intercalate_nil, List.splitOn_eq_singleton (by decide)]
    rfl
  · obtain ⟨pieces, hsplit, hread⟩ := splitOn_items items i _ hfirst h
    rw [List.append_assoc, hsplit]
    exact hread

/-- A request to view the items is answered by the list of the user's rows. -/
theorem viewItems_reply {user : User} {unixNow : ℤ} {request response : Bytes} {s : SharedState}
    (hp : parseRequest request = .command .viewItems)
    (hr : (processRequest user unixNow request s).1 = .reply response) :
    response = itemList ((selectUserItems user.id.toInt s.db.toTables).map userItemInfo) := by
  unfold processRequest at hr
  rw [hp] at hr
  replace hr : (AnyCommand.executeViewItems user s).1 = .reply response := hr
  unfold AnyCommand.executeViewItems at hr
  rw [state_bind, onStorage_query (Storage.viewUserItems user.id) fun _ hc => (query_after _ hc).1] at hr
  unfold Storage.viewUserItems Sql.Connection.idle at hr
  rw [query_calm, Sql.outcome_ok] at hr
  exact (Response.reply.inj hr).symm

/-- Whoever asks for his items reads in the answer one entry for each row of his, with its item and its
quantity, exactly when no name has a NUL and no quantity is beyond an `int`. No item name may have a quote. -/
theorem items_read {s : SharedState} (hitems : ∀ i ∈ s.db.items, quote ∉ i.name) {user : User} {unixNow : ℤ}
    {request response : Bytes} (hp : parseRequest request = .command .viewItems)
    (hr : (processRequest user unixNow request s).1 = .reply response) :
    ∃ entries, readItems response = some entries ∧
      (ShowsItems s.db.toTables user.id.toInt entries ↔ Legible s.db.toTables user.id.toInt) := by
  obtain rfl := viewItems_reply hp hr
  refine ⟨_, readItems_itemList fun e he => ?_, showsItems_iff s.db.valid _⟩
  obtain ⟨p, hp, rfl⟩ := List.mem_map.1 he
  exact not_mem_columnText (hitems p.2 ((selectUserItems_spec s.db.valid _).2 p hp).2.1)

theorem items_read_swords :
    ∃ s, Machine.run Output.step (Output.started Storage.initial Database.initial) Output.swordRun = some s ∧
      ∃ entries, readItems (text "Items: [(\"funds\", 10), (\"sword\", 5)]") = some entries ∧
        (ShowsItems s.state.db.toTables 1 entries ↔ Legible s.state.db.toTables 1) := by
  have hrun : (Machine.run Output.step (Output.started Storage.initial Database.initial) Output.swordRun).map
      (fun s => (s.state.db.items.map (·.name),
        (processRequest ⟨1, text "alice"⟩ 0 (text "view_items") s.state).1)) =
      some ([text "funds", text "sword"], .reply (text "Items: [(\"funds\", 10), (\"sword\", 5)]")) := by
    decide +kernel
  obtain ⟨s, hs, h⟩ := Option.map_eq_some_iff.1 hrun
  obtain ⟨hitems, hr⟩ := Prod.mk.inj h
  refine ⟨s, hs, items_read (fun i hi => ?_) rfl hr⟩
  have hname : i.name ∈ [text "funds", text "sword"] := hitems ▸ List.mem_map_of_mem hi
  have hall : ∀ name ∈ [text "funds", text "sword"], quote ∉ name := by decide
  exact hall _ hname

end AuctionHouse
