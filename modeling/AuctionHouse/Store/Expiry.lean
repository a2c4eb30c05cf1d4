/-
Expired orders. A buy reads an order without its expiration time, so an order that a tick has not
yet settled is bought after its expiration, most likely when the server has been down for a while.
-/
import AuctionHouse.Server.Commands
import AuctionHouse.Store.Spending

namespace AuctionHouse

open Storage

/-! ## Runs with downtime -/

/-- The database, and the storage the running server has opened on it. -/
structure Opened where
  storage : Storage
  db : Database

/-- The server executes an event, with the refusals of its statements, or is started again on its
database after any downtime. -/
inductive Occurrence where
  | event (event : Event) (faults : List (Option (Sql.Fault Error)))
  | restart

/-- The wall clock an event reads, if it does. -/
def Event.time : Event → Option ℤ
  | .login _ => none
  | .command _ unixNow _ => some unixNow
  | .tick unixNow => some unixNow

def Occurrence.time : Occurrence → Option ℤ
  | .event e _ => e.time
  | .restart => none

namespace Opened

def initial : Opened := ⟨Storage.initial, Database.initial⟩

/-- None when the server does not start. -/
def next (s : Opened) : Occurrence → Option Opened
  | .event e faults => some { s with db := Call.next s.storage ⟨e.operation, faults⟩ s.db }
  | .restart =>
    match Storage.open (Sql.Connection.idle s.db) with
    | .ok storage c => some ⟨storage, c.db⟩
    | .error _ _ => none

/-! ## A restart -/

/-- Opening a database again finds the funds item, and changes nothing. -/
theorem open_again {st : Storage} {db : Database} (hi : Invariant st db.toTables) :
    Storage.open (Sql.Connection.idle db) = .ok st (Sql.Connection.idle db) := by
  have hinsert : Sql.mapError (text "Failed to insert 'funds' item: " ++ ·) (execute insertFundsItem)
      (Sql.Connection.idle db) = .ok () (Sql.Connection.idle db) := by
    rw [Sql.mapError_ok_iff]
    refine executeWith_calm (t := db.toTables) ?_ db.valid none
    rw [insertFundsItem_of_mem hi.funds rfl]
  have hselect : Sql.mapError (text "Failed to get 'funds' item id: " ++ ·)
      (query (selectItemId (some fundsItemName))) (Sql.Connection.idle db) =
      .ok (columnInt st.fundsItemId.toInt) (Sql.Connection.idle db) := by
    rw [Sql.mapError_ok_iff]
    exact getItemId_calm hi.funds rfl none
  unfold Storage.open
  rw [Sql.bind_of_ok hinsert, Sql.bind_of_ok hselect, columnInt_toInt]
  rfl

variable {s s' : Opened} {e : Occurrence}

theorem next_restart (hi : Invariant s.storage s.db.toTables) : s.next .restart = some s := by
  unfold next
  rw [open_again hi]
  rfl

theorem invariant_next (hi : Invariant s.storage s.db.toTables) (h : s.next e = some s') :
    Invariant s'.storage s'.db.toTables := by
  rcases e with ⟨e, faults⟩ | _
  · cases h
    exact Call.invariant_next hi _
  · rw [next_restart hi] at h
    cases h
    exact hi

theorem next_exists (hi : Invariant s.storage s.db.toTables) (e : Occurrence) : ∃ s', s.next e = some s' := by
  rcases e with ⟨e, faults⟩ | _
  · exact ⟨_, rfl⟩
  · exact ⟨s, next_restart hi⟩

/-! ## What happens to an order from its expiration on -/

/-- A tick settles the order with the others that are due: it is gone, and it was paid out to its
seller or to the bidder it had. -/
structure Settles (s : Opened) (e : Occurrence) (s' : Opened) (o : SellOrderRow) : Prop where
  tick : ∃ unixNow faults, e = .event (.tick unixNow) faults ∧ o.expirationTime ≤ unixNow ∧
    s'.db.market = s.db.market.apply s.storage.fundsItemId.toInt (.settle unixNow)
  gone : Gone s'.db.toTables o.id

/-- No buy on an expired order succeeds, and an expired order is only settled. -/
structure NotTraded (s : Opened) (e : Occurrence) : Prop where
  rejected : ∀ userId unixNow id bid faults, e = .event (.command userId unixNow (.buy id bid)) faults →
    ∀ o ∈ s.db.sellOrders, o.id = id.toInt → o.expirationTime ≤ unixNow →
      ∃ error, Call.reply s.storage ⟨(Event.command userId unixNow (.buy id bid)).operation, faults⟩ s.db = .error error
  settled : ∀ s', s.next e = some s' → ∀ o ∈ s.db.sellOrders, (∀ now, e.time = some now → o.expirationTime ≤ now) →
    o ∈ s'.db.sellOrders ∨ Settles s e s' o

/-- A buy of an expired order that its buyer can pay. -/
def BuysExpired (s : Opened) : Occurrence → Prop
  | .event (.command userId unixNow (.buy id bid)) _ =>
    (∃ o ∈ s.db.sellOrders, o.id = id.toInt ∧ o.expirationTime ≤ unixNow) ∧
      let operation := (Event.command userId unixNow (.buy id bid)).operation
      Covered s.storage s.db.toTables operation ∧ ReadsEnough s.storage s.db.toTables operation
  | _ => False

/-- The statements of a buy are not refused. -/
def CalmBuy : Occurrence → Prop
  | .event (.command _ _ (.buy _ _)) faults => faults = []
  | _ => True

theorem rejected_of_not_buysExpired (hi : Invariant s.storage s.db.toTables) (h : ¬ s.BuysExpired e)
    {userId : UserId} {unixNow : ℤ} {id : Int32} {bid : Option Int32} {faults : List (Option (Sql.Fault Error))}
    (he : e = .event (.command userId unixNow (.buy id bid)) faults) {o : SellOrderRow} (ho : o ∈ s.db.sellOrders)
    (hid : o.id = id.toInt) (hexp : o.expirationTime ≤ unixNow) : ∃ error,
      Call.reply s.storage ⟨(Event.command userId unixNow (.buy id bid)).operation, faults⟩ s.db = .error error := by
  subst he
  rcases hr : Call.reply s.storage ⟨(Event.command userId unixNow (.buy id bid)).operation, faults⟩ s.db
    with error | reply
  · exact ⟨error, rfl⟩
  · exact absurd ⟨⟨o, ho, hid, hexp⟩, reply_covered hi hr⟩ h

/-- Whichever statements are refused, an expired order is not traded by an occurrence that does not
buy it. -/
theorem notTraded_of_not_buysExpired (hi : Invariant s.storage s.db.toTables) (h : ¬ s.BuysExpired e) :
    s.NotTraded e := by
  refine ⟨fun userId unixNow id bid faults he o ho hid hexp => rejected_of_not_buysExpired hi h he ho hid hexp,
    fun s' hs' o ho htime => ?_⟩
  rcases e with ⟨e, faults⟩ | _
  · cases hs'
    obtain ⟨d, hex, hd⟩ := Call.next_dealt hi ⟨e.operation, faults⟩
    have hm : o.order ∈ s.db.market.book := mem_market.2 ⟨o, ho, rfl⟩
    have hbook : s.db.market.bookAfter d = (Call.next s.storage ⟨e.operation, faults⟩ s.db).market.book := by
      rw [hd.market]; rfl
    cases Market.fate (market_wf s.db.valid hi) hd.allowed hm with
    | stays hs => exact .inl (mem_of_order (hbook ▸ hs))
    | bid u b hdeal =>
      obtain ⟨userId, id, bid, x, hcall, hreply, -, hid, -, hx, -⟩ := hex.of_bid hdeal
      obtain rfl := SellOrderRow.order_injective hx
      obtain ⟨unixNow, rfl⟩ := Event.of_bid hcall
      exact absurd ⟨⟨o, ho, hid, htime unixNow rfl⟩, reply_covered hi hreply⟩ h
    | bought u hdeal =>
      obtain ⟨userId, id, x, hcall, hreply, -, hid, -, hx⟩ := hex.of_purchase hdeal
      obtain rfl := SellOrderRow.order_injective hx
      obtain ⟨unixNow, rfl⟩ := Event.of_purchase hcall
      exact absurd ⟨⟨o, ho, hid, htime unixNow rfl⟩, reply_covered hi hreply⟩ h
    | settled now hdeal hexp hgone =>
      refine .inr ⟨⟨now, faults, by rw [Event.of_settle (hex.of_settle hdeal)], hexp, ?_⟩, ?_⟩
      · rw [← hdeal]
        exact hd.market
      · exact gone_market.1 fun x hx => hgone x (by rw [hbook]; exact hx)
  · rw [next_restart hi] at hs'
    cases hs'
    exact .inl ho

/-- A buy that is not refused and meets an expired order its buyer can pay succeeds. -/
theorem not_notTraded_of_buysExpired (hi : Invariant s.storage s.db.toTables) (hc : CalmBuy e) (h : s.BuysExpired e) :
    ¬ s.NotTraded e := by
  rcases e with ⟨_ | ⟨userId, unixNow, _ | _ | _ | ⟨id, bid⟩⟩ | _, faults⟩ | _
  all_goals try exact h.elim
  obtain ⟨⟨o, ho, hid, hexp⟩, hcovered⟩ := h
  obtain rfl : faults = [] := hc
  intro hn
  obtain ⟨error, herror⟩ := hn.rejected userId unixNow id bid [] rfl o ho hid hexp
  obtain ⟨reply, hreply⟩ : Succeeds s.storage s.db (Event.command userId unixNow (.buy id bid)).operation := by
    rcases bid with _ | bid
    · exact (executeImmediateSellOrder_succeeds hi userId id).2 hcovered
    · exact (placeBidOnAuctionSellOrder_succeeds hi userId id bid).2 hcovered
  rw [hreply] at herror
  cases herror

/-- Through restarts and refused statements, at any times, nothing trades an order from its
expiration on if no step of the run is a buy of an expired order that its buyer can pay; and when
the buys are not refused, exactly then. -/
theorem expired_not_traded_iff (occurrences : List Occurrence) :
    (∃ s, Machine.run next initial occurrences = some s) ∧
    (Machine.AtEachStep next (fun s e => ¬ s.BuysExpired e) initial occurrences →
      Machine.AtEachStep next NotTraded initial occurrences) ∧
    ((∀ e ∈ occurrences, CalmBuy e) →
      (Machine.AtEachStep next NotTraded initial occurrences ↔
        Machine.AtEachStep next (fun s e => ¬ s.BuysExpired e) initial occurrences)) := by
  have hkeep : ∀ (s : Opened) e s', Invariant s.storage s.db.toTables → s.next e = some s' →
      Invariant s'.storage s'.db.toTables := fun _ _ _ hi h => invariant_next hi h
  have hfirst : Invariant initial.storage initial.db.toTables := initial_invariant
  have henough : Machine.AtEachStep next (fun s e => ¬ s.BuysExpired e) initial occurrences →
      Machine.AtEachStep next NotTraded initial occurrences :=
    Machine.AtEachStep.imp hkeep hfirst fun _ _ _ hi h => notTraded_of_not_buysExpired hi h
  refine ⟨Machine.run_total hkeep (fun _ e hi => next_exists hi e) hfirst, henough, fun hcalm => ⟨?_, henough⟩⟩
  refine Machine.AtEachStep.imp hkeep hfirst fun s e he hi hn hb => ?_
  exact not_notTraded_of_buysExpired hi (hcalm e he) hb hn

/-- alice's orders expire at 300. The server is down from 200 to 400, and before its first tick bob
buys the sword and bids on the shield. -/
theorem expired_orders_traded :
    let event (e : Event) := Occurrence.event e []
    let user (name : String) := event (.login (some (text name)))
    let sword : StringView := some (text "sword")
    let shield : StringView := some (text "shield")
    let funds : StringView := some fundsItemName
    let occurrences := [user "alice", user "bob", event (.command 1 0 (.deposit funds 10)),
      event (.command 1 0 (.deposit sword 1)), event (.command 1 0 (.deposit shield 1)),
      event (.command 2 0 (.deposit funds 100)), event (.command 1 0 (.sell .immediate sword 1 20)),
      event (.command 1 0 (.sell .auction shield 1 30)), event (.tick 200), .restart]
    let purchase := Event.command 2 400 (.buy 1 none)
    let bid := Event.command 2 400 (.buy 2 (some 40))
    ∃ s, Machine.run next initial occurrences = some s ∧
      s.db.sellOrders.map (·.expirationTime) = [300, 300] ∧
      (Call.reply s.storage ⟨purchase.operation, []⟩ s.db).isOk ∧
      (Call.reply s.storage ⟨bid.operation, []⟩ s.db).isOk ∧
      ¬ s.NotTraded (event purchase) ∧ ¬ s.NotTraded (event bid) := by
  intro event user sword shield funds occurrences purchase bid
  have hrun : (Machine.run next initial occurrences).map (fun s => (s.db.sellOrders,
      (Call.reply s.storage ⟨purchase.operation, []⟩ s.db).isOk,
      (Call.reply s.storage ⟨bid.operation, []⟩ s.db).isOk)) =
      some ([⟨1, 1, 2, 1, 20, 300, some 1⟩, ⟨2, 1, 3, 1, 30, 300, none⟩], true, true) := by decide +kernel
  obtain ⟨s, hs, h⟩ := Option.map_eq_some_iff.1 hrun
  simp only [Prod.mk.injEq] at h
  obtain ⟨horders, hpurchase, hbid⟩ := h
  refine ⟨s, hs, by rw [horders]; rfl, hpurchase, hbid, fun hn => ?_, fun hn => ?_⟩
  · obtain ⟨error, he⟩ := hn.rejected 2 400 1 none [] rfl ⟨1, 1, 2, 1, 20, 300, some 1⟩ (by simp [horders]) rfl
      (by decide)
    rw [he] at hpurchase
    cases hpurchase
  · obtain ⟨error, he⟩ := hn.rejected 2 400 2 (some 40) [] rfl ⟨2, 1, 3, 1, 30, 300, none⟩ (by simp [horders]) rfl
      (by decide)
    rw [he] at hbid
    cases hbid

end Opened

end AuctionHouse
