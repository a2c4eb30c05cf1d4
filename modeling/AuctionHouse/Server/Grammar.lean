/-
What the argument parsers accept against the grammar of the commands, in which a number is a whole
word: they agree unless a text that is read as a number goes on after its digits. Every command
that is printed with all of its arguments is parsed back.
-/
import AuctionHouse.Server.Parsing

namespace AuctionHouse

open Text

/-! ## The grammar -/

/-- An item name with a count in its last word, or an item name of one item. -/
inductive ItemNameAndCount : StringView → StringView → Int32 → Prop
  | counted {itemName word : Bytes} {quantity : Int32} (h : Numeral word quantity.toInt) :
    ItemNameAndCount (some (itemName ++ space :: word)) (some itemName) quantity
  | uncounted {args : StringView} (h : ∀ (itemName word : Bytes) (n : Int32),
      args.bytes = itemName ++ space :: word → ¬ Numeral word n.toInt) : ItemNameAndCount args args 1

/-- The order type that the arguments of a sell order name, or immediate, and what they sell. -/
inductive OrderTypeOf : StringView → SellOrderType → StringView → Prop
  | named {orderType : SellOrderType} {rest : Bytes} :
    OrderTypeOf (some (orderType.toBytes ++ space :: rest)) orderType (some rest)
  | unnamed {args : StringView} (h : ∀ (orderType : SellOrderType) (rest : Bytes),
      args.bytes ≠ orderType.toBytes ++ space :: rest) : OrderTypeOf args .immediate args

/-- What is sold and its price in the last word; without a price there is no sell order. -/
inductive Sale (orderType : SellOrderType) : StringView → Option Command → Prop
  | priced {args itemName : StringView} {rest word : Bytes} {quantity price : Int32}
    (hargs : args.bytes = rest ++ space :: word) (hprice : Numeral word price.toInt)
    (hitem : ItemNameAndCount (some rest) itemName quantity) :
    Sale orderType args (some (.sell orderType itemName quantity price))
  | unpriced {args : StringView} (h : ∀ (rest word : Bytes) (n : Int32),
      args.bytes = rest ++ space :: word → ¬ Numeral word n.toInt) : Sale orderType args none

/-- An order id, or an order id and a bid; anything else is no purchase and no bid. -/
inductive Purchase (args : StringView) : Option Command → Prop
  | execute {sellOrderId : Int32} (h : Numeral args.bytes sellOrderId.toInt) :
    Purchase args (some (.buy sellOrderId none))
  | bid {idStr bidStr : Bytes} {sellOrderId bid : Int32} (hargs : args.bytes = idStr ++ space :: bidStr)
    (hid : Numeral idStr sellOrderId.toInt) (hbid : Numeral bidStr bid.toInt) :
    Purchase args (some (.buy sellOrderId (some bid)))
  | rejected (hexecute : ∀ n : Int32, ¬ Numeral args.bytes n.toInt)
    (hbid : ∀ (idStr bidStr : Bytes) (m n : Int32), args.bytes = idStr ++ space :: bidStr →
      ¬ (Numeral idStr m.toInt ∧ Numeral bidStr n.toInt)) : Purchase args none

/-! ## Where the parsers keep to it -/

/-- No count goes on after its digits. -/
def WholeCount (args : StringView) : Prop :=
  ∀ itemName word : Bytes, args.bytes = itemName ++ space :: word → space ∉ word → ¬ Trailing word

/-- No price goes on after its digits, and with a price no count does. -/
def WholeSale (args : StringView) : Prop :=
  ∀ (orderType : SellOrderType) (sold : StringView), OrderTypeOf args orderType sold →
    ∀ rest word : Bytes, sold.bytes = rest ++ space :: word → space ∉ word →
      ¬ Trailing word ∧ ((∃ n : Int32, Numeral word n.toInt) → WholeCount (some rest))

/-- A text that starts with an `int`. -/
def Readable (word : Bytes) : Prop := Trailing word ∨ ∃ n : Int32, Numeral word n.toInt

/-- No order id that is all of the arguments goes on after its digits, and of an order id and a bid
that both start with an `int` neither does. -/
def WholePurchase (args : StringView) : Prop :=
  (space ∉ args.bytes → ¬ Trailing args.bytes) ∧
    ∀ idStr bidStr : Bytes, args.bytes = idStr ++ space :: bidStr → space ∉ idStr →
      Readable idStr → Readable bidStr → ¬ Trailing idStr ∧ ¬ Trailing bidStr

/-! ## Item names and counts -/

theorem StringView.eq_some {args : StringView} {bytes : Bytes} (h : args.bytes = bytes) (hne : bytes ≠ []) :
    args = some bytes := by
  rcases args with _ | b
  · exact absurd h.symm hne
  · exact congrArg some h

theorem ItemNameAndCount.unique {args a b : StringView} {m n : Int32} (ha : ItemNameAndCount args a m)
    (hb : ItemNameAndCount args b n) : a = b ∧ m = n := by
  cases ha with
  | counted hm =>
    rename_i name word
    generalize hargs : (some (name ++ space :: word) : StringView) = args at hb
    cases hb with
    | counted hn =>
      -- a numeral has no space, so there is one last word
      have h1 := splitLast_append (space_not_mem hm) name
      rw [Option.some.inj hargs, splitLast_append (space_not_mem hn)] at h1
      cases h1
      exact ⟨rfl, Int32.toInt_inj.1 (hm.unique hn)⟩
    | uncounted h => exact absurd hm (h _ _ m (by rw [← hargs]; rfl))
  | uncounted h =>
    cases hb with
    | counted hn => exact absurd hn (h _ _ _ rfl)
    | uncounted _ => exact ⟨rfl, rfl⟩

/-- The parser finds the count of the grammar exactly when no count goes on after its digits. -/
theorem parseItemNameAndCount_iff (args : StringView) :
    ItemNameAndCount args (parseItemNameAndCount args).1 (parseItemNameAndCount args).2 ↔ WholeCount args := by
  unfold parseItemNameAndCount
  rcases hs : splitLast space args.bytes with _ | ⟨itemName, word⟩
  · have hno := splitLast_none.1 hs
    constructor
    · intro _ itemName word h
      exact absurd (by rw [h]; simp) hno
    · intro _
      refine .uncounted fun itemName word n h => ?_
      exact absurd (by rw [h]; simp) hno
  · obtain ⟨hargs, hword⟩ := splitLast_some.1 hs
    have hsome := StringView.eq_some hargs (by simp)
    rcases fromChars_cases word with ⟨n, hn, hread⟩ | ⟨ht, n, rest, hread⟩ | ⟨ht, hn, e, hread⟩
    · simp only [hread]
      constructor
      · rintro - name w h hw ht
        obtain ⟨-, rfl⟩ := splitLast_unique hs h hw
        exact ht.not_numeral n hn
      · intro _
        rw [hsome]
        exact .counted hn
    · simp only [hread]
      constructor
      · intro h
        -- the count that is read is none of the grammar
        generalize hname : (some itemName : StringView) = name at h
        cases h with
        | counted hm =>
          rename_i name w
          obtain ⟨-, rfl⟩ := splitLast_unique hs rfl (space_not_mem hm)
          exact absurd hm (ht.not_numeral n)
        | uncounted _ =>
          rw [hsome] at hname
          exact absurd (congrArg List.length (Option.some.inj hname)) (by simp)
      · intro h
        exact absurd ht (h itemName word hargs hword)
    · simp only [hread]
      constructor
      · rintro - name w h hw
        obtain ⟨-, rfl⟩ := splitLast_unique hs h hw
        exact ht
      · intro _
        refine .uncounted fun name w m h hm => ?_
        obtain ⟨-, rfl⟩ := splitLast_unique hs h (space_not_mem hm)
        exact hn m hm

/-! ## Order types -/

theorem space_not_mem_orderType (orderType : SellOrderType) : space ∉ orderType.toBytes := by
  cases orderType <;> decide

theorem parseSellOrderType_iff {str : Bytes} {orderType : SellOrderType} :
    parseSellOrderType str = some orderType ↔ str = orderType.toBytes := by
  constructor
  · intro h
    unfold parseSellOrderType at h
    split at h
    · rename_i he; cases h; exact he
    · split at h
      · rename_i he; cases h; exact he
      · cases h
  · rintro rfl
    cases orderType
    · rfl
    · rfl

theorem orderTypeOf_parse (args : StringView) :
    OrderTypeOf args (Command.parseOrderType args).1 (Command.parseOrderType args).2 := by
  unfold Command.parseOrderType
  rcases hs : splitFirst space args.bytes with _ | ⟨str, rest⟩
  · refine .unnamed fun orderType rest h => ?_
    exact splitFirst_none.1 hs (by rw [h]; simp)
  · obtain ⟨hargs, hstr⟩ := splitFirst_some.1 hs
    rcases hp : parseSellOrderType str with _ | orderType
    · simp only [hp]
      refine .unnamed fun orderType rest' h => ?_
      obtain ⟨rfl, -⟩ := splitFirst_unique hs h (space_not_mem_orderType orderType)
      rw [parseSellOrderType_iff.2 rfl] at hp
      cases hp
    · simp only [hp]
      rw [StringView.eq_some hargs (by simp), parseSellOrderType_iff.1 hp]
      exact .named

theorem OrderTypeOf.unique {args a b : StringView} {s t : SellOrderType} (ha : OrderTypeOf args s a)
    (hb : OrderTypeOf args t b) : s = t ∧ a = b := by
  cases ha with
  | named =>
    rename_i rest
    generalize hargs : (some (s.toBytes ++ space :: rest) : StringView) = args at hb
    cases hb with
    | named =>
      have h1 := splitFirst_append (space_not_mem_orderType s) rest
      rw [Option.some.inj hargs, splitFirst_append (space_not_mem_orderType t)] at h1
      obtain ⟨htype, hrest⟩ := Prod.mk.inj (Option.some.inj h1)
      have := parseSellOrderType_iff.2 htype
      rw [parseSellOrderType_iff.2 rfl] at this
      exact ⟨(Option.some.inj this).symm, by rw [hrest]⟩
    | unnamed h => exact absurd (by rw [← hargs]; rfl) (h s rest)
  | unnamed h =>
    cases hb with
    | named => exact absurd rfl (h _ _)
    | unnamed _ => exact ⟨rfl, rfl⟩

/-! ## Sell orders -/

theorem parseSell_eq (args : StringView) :
    Command.parseSell args = match splitLast space (Command.parseOrderType args).2.bytes with
      | none => none
      | some (rest, word) =>
        match fromChars word with
        | .error _ => none
        | .ok (price, _) => some (.sell (Command.parseOrderType args).1 (parseItemNameAndCount (some rest)).1
            (parseItemNameAndCount (some rest)).2 price) := rfl

/-- The parser finds the sell order of the grammar exactly when neither a price nor the count before
it goes on after its digits. -/
theorem parseSell_iff (args : StringView) :
    (∃ orderType sold, OrderTypeOf args orderType sold ∧ Sale orderType sold (Command.parseSell args)) ↔
      WholeSale args := by
  have htype := orderTypeOf_parse args
  rcases hp : Command.parseOrderType args with ⟨orderType, sold⟩
  rw [hp] at htype
  have hparse := parseSell_eq args
  rw [hp] at hparse
  have hone : (∃ t s, OrderTypeOf args t s ∧ Sale t s (Command.parseSell args)) ↔
      Sale orderType sold (Command.parseSell args) := by
    constructor
    · rintro ⟨t, s, ht, hsale⟩
      obtain ⟨rfl, rfl⟩ := ht.unique htype
      exact hsale
    · intro hsale
      exact ⟨orderType, sold, htype, hsale⟩
  rw [hone, hparse]
  rcases hs : splitLast space sold.bytes with _ | ⟨rest, word⟩
  · have hno := splitLast_none.1 hs
    constructor
    · intro _ t s ht rest word h
      obtain ⟨rfl, rfl⟩ := ht.unique htype
      exact absurd (by rw [h]; simp) hno
    · intro _
      refine .unpriced fun rest word n h => ?_
      exact absurd (by rw [h]; simp) hno
  obtain ⟨hsold, hword⟩ := splitLast_some.1 hs
  -- the price and what is before it are found once
  have hlast : ∀ {t : SellOrderType} {s : StringView} {r w : Bytes}, OrderTypeOf args t s →
      s.bytes = r ++ space :: w → space ∉ w → r = rest ∧ w = word := by
    intro t s r w ht h hw
    obtain ⟨rfl, rfl⟩ := ht.unique htype
    exact splitLast_unique hs h hw
  rcases fromChars_cases word with ⟨n, hn, hread⟩ | ⟨ht, n, tail, hread⟩ | ⟨ht, hn, e, hread⟩
  · simp only [hread]
    constructor
    · intro hsale t s hts r w h hw
      obtain ⟨rfl, rfl⟩ := hlast hts h hw
      refine ⟨fun ht => ht.not_numeral n hn, fun _ => ?_⟩
      cases hsale with
      | priced hargs hprice hitem =>
        obtain ⟨rfl, rfl⟩ := hlast htype hargs (space_not_mem hprice)
        exact (parseItemNameAndCount_iff _).1 hitem
    · intro h
      refine .priced hsold hn ((parseItemNameAndCount_iff _).2 ?_)
      exact (h orderType sold htype rest word hsold hword).2 ⟨n, hn⟩
  · simp only [hread]
    constructor
    · intro hsale
      cases hsale with
      | priced hargs hprice hitem =>
        obtain ⟨rfl, rfl⟩ := hlast htype hargs (space_not_mem hprice)
        exact absurd hprice (ht.not_numeral n)
    · intro h
      exact absurd ht (h orderType sold htype rest word hsold hword).1
  · simp only [hread]
    constructor
    · rintro - t s hts r w h hw
      obtain ⟨rfl, rfl⟩ := hlast hts h hw
      refine ⟨ht, ?_⟩
      rintro ⟨m, hm⟩
      exact absurd hm (hn m)
    · intro _
      refine .unpriced fun r w m h hm => ?_
      obtain ⟨rfl, rfl⟩ := hlast htype h (space_not_mem hm)
      exact hn m hm

/-! ## Purchases and bids -/

theorem readable_iff {word : Bytes} : Readable word ↔ ∃ n rest, fromChars word = .ok (n, rest) := by
  rcases fromChars_cases word with ⟨n, hn, hread⟩ | ⟨ht, n, rest, hread⟩ | ⟨ht, hn, e, hread⟩
  · exact ⟨fun _ => ⟨n, [], hread⟩, fun _ => .inr ⟨n, hn⟩⟩
  · exact ⟨fun _ => ⟨n, rest, hread⟩, fun _ => .inl ht⟩
  · constructor
    · rintro (h | ⟨n, h⟩)
      · exact absurd h ht
      · exact absurd h (hn n)
    · rintro ⟨n, rest, h⟩
      rw [hread] at h
      cases h

/-- A text read as a number that is no whole number goes on after its digits. -/
theorem trailing_of_read {word : Bytes} {n : Int32} {rest : Bytes} (h : fromChars word = .ok (n, rest))
    (hn : ¬ Numeral word n.toInt) : Trailing word := by
  refine fromChars_trailing.2 ⟨n, rest, ?_, h⟩
  rintro rfl
  exact hn (fromChars_whole.1 h)

/-- The parser finds the purchase or bid of the grammar exactly when no number it reads goes on
after its digits. -/
theorem parseBuy_iff (args : StringView) : Purchase args (Command.parseBuy args) ↔ WholePurchase args := by
  unfold Command.parseBuy
  rcases hs : splitFirst space args.bytes with _ | ⟨idStr, bidStr⟩
  · have hno := splitFirst_none.1 hs
    have hsplit : ∀ {a b : Bytes}, args.bytes ≠ a ++ space :: b := by
      intro a b h
      exact hno (by rw [h]; simp)
    rcases fromChars_cases args.bytes with ⟨n, hn, hread⟩ | ⟨ht, n, rest, hread⟩ | ⟨ht, hn, e, hread⟩
    · simp only [Option.bind_eq_bind, Option.bind_some, hread]
      constructor
      · rintro -
        exact ⟨fun _ ht => ht.not_numeral n hn, fun _ _ h => absurd h hsplit⟩
      · intro _
        exact .execute hn
    · simp only [Option.bind_eq_bind, Option.bind_some, hread]
      constructor
      · intro h
        cases h with
        | execute h => exact absurd h (ht.not_numeral n)
      · intro h
        exact absurd ht (h.1 hno)
    · simp only [Option.bind_eq_bind, Option.bind_some, hread]
      constructor
      · rintro -
        exact ⟨fun _ => ht, fun _ _ h => absurd h hsplit⟩
      · intro _
        exact .rejected hn fun _ _ _ _ h => absurd h hsplit
  · obtain ⟨hargs, hid⟩ := splitFirst_some.1 hs
    have hspace : space ∈ args.bytes := by rw [hargs]; simp
    have hwhole : ∀ n : Int32, ¬ Numeral args.bytes n.toInt := fun n h => space_not_mem h hspace
    have hreject (h : ¬ (Readable idStr ∧ Readable bidStr)) : Purchase args none ↔ WholePurchase args := by
      constructor
      · rintro -
        refine ⟨fun hn => absurd hspace hn, fun a b hab ha h1 h2 => ?_⟩
        obtain ⟨rfl, rfl⟩ := splitFirst_unique hs hab ha
        exact absurd ⟨h1, h2⟩ h
      · intro _
        refine .rejected hwhole fun a b m n hab => ?_
        rintro ⟨hm, hn⟩
        obtain ⟨rfl, rfl⟩ := splitFirst_unique hs hab (space_not_mem hm)
        exact h ⟨.inr ⟨m, hm⟩, .inr ⟨n, hn⟩⟩
    rcases hb : fromChars bidStr with e | ⟨bid, bidRest⟩
    · simp only [Option.bind_eq_bind, hb, Option.bind_none]
      refine hreject ?_
      rintro ⟨-, h⟩
      obtain ⟨n, rest, h⟩ := readable_iff.1 h
      rw [hb] at h
      cases h
    rcases hi : fromChars idStr with e | ⟨sellOrderId, idRest⟩
    · simp only [Option.bind_eq_bind, hb, Option.bind_some, hi]
      refine hreject ?_
      rintro ⟨h, -⟩
      obtain ⟨n, rest, h⟩ := readable_iff.1 h
      rw [hi] at h
      cases h
    simp only [Option.bind_eq_bind, hb, Option.bind_some, hi]
    constructor
    · intro h
      cases h with
      | bid hab hid' hbid' =>
        obtain ⟨rfl, rfl⟩ := splitFirst_unique hs hab (space_not_mem hid')
        refine ⟨fun hn => absurd hspace hn, fun a b hab ha _ _ => ?_⟩
        obtain ⟨rfl, rfl⟩ := splitFirst_unique hs hab ha
        exact ⟨fun ht => ht.not_numeral _ hid', fun ht => ht.not_numeral _ hbid'⟩
    · intro h
      obtain ⟨h1, h2⟩ := h.2 idStr bidStr hargs hid (readable_iff.2 ⟨_, _, hi⟩) (readable_iff.2 ⟨_, _, hb⟩)
      refine .bid hargs ?_ ?_
      · by_contra hn
        exact h1 (trailing_of_read hi hn)
      · by_contra hn
        exact h2 (trailing_of_read hb hn)

/-! ## Whole words -/

/-- A command that is an item name and a count. -/
theorem parseCounted_iff {command : StringView → Int32 → Command}
    (hinj : ∀ a b m n, command a m = command b n → a = b ∧ m = n) (args : StringView) :
    (∃ itemName quantity, ItemNameAndCount args itemName quantity ∧
      some (command (parseItemNameAndCount args).1 (parseItemNameAndCount args).2) = some (command itemName quantity)) ↔
        WholeCount args := by
  rw [← parseItemNameAndCount_iff]
  constructor
  · rintro ⟨itemName, quantity, h, hp⟩
    obtain ⟨h1, h2⟩ := hinj _ _ _ _ (Option.some.inj hp)
    rw [h1, h2]
    exact h
  · intro h
    exact ⟨_, _, h, rfl⟩

/-- A number is a whole word for a parser exactly when no text it reads a number from goes on after
the digits: the last word for a quantity or a price, the first for an order id, the rest for a bid. -/
theorem numeric_words_whole_iff (args : StringView) :
    ((∃ itemName quantity, ItemNameAndCount args itemName quantity ∧
      Command.parseDeposit args = some (.deposit itemName quantity)) ↔ WholeCount args) ∧
    ((∃ itemName quantity, ItemNameAndCount args itemName quantity ∧
      Command.parseWithdraw args = some (.withdraw itemName quantity)) ↔ WholeCount args) ∧
    ((∃ orderType sold, OrderTypeOf args orderType sold ∧ Sale orderType sold (Command.parseSell args)) ↔
      WholeSale args) ∧
    (Purchase args (Command.parseBuy args) ↔ WholePurchase args) := by
  refine ⟨?_, ?_, parseSell_iff args, parseBuy_iff args⟩
  · refine parseCounted_iff (fun a b m n h => ?_) args
    cases h
    exact ⟨rfl, rfl⟩
  · refine parseCounted_iff (fun a b m n h => ?_) args
    cases h
    exact ⟨rfl, rfl⟩

/-- A number is read from "2handed", "12abc", "1,000", "10 5" and "5x". -/
theorem numbers_read_in_part :
    (Command.parseDeposit (some (text "holy 2handed")) = some (.deposit (some (text "holy")) 2) ∧
      ¬ ∃ itemName quantity, ItemNameAndCount (some (text "holy 2handed")) itemName quantity ∧
        Command.parseDeposit (some (text "holy 2handed")) = some (.deposit itemName quantity)) ∧
    (Command.parseBuy (some (text "12abc")) = some (.buy 12 none) ∧
      ¬ Purchase (some (text "12abc")) (Command.parseBuy (some (text "12abc")))) ∧
    Command.parseBuy (some (text "20 1,000")) = some (.buy 20 (some 1)) ∧
    Command.parseBuy (some (text "20 10 5")) = some (.buy 20 (some 10)) ∧
    Command.parseSell (some (text "sword 5x")) = some (.sell .immediate (some (text "sword")) 1 5) := by
  refine ⟨⟨rfl, ?_⟩, ⟨rfl, ?_⟩, rfl, rfl, rfl⟩
  · rintro ⟨itemName, quantity, h, hp⟩
    cases hp
    refine (parseItemNameAndCount_iff (some (text "holy 2handed"))).1 h (text "holy") (text "2handed") rfl (by decide) ?_
    exact ⟨text "2", 2, 104, text "anded", rfl, numeral_of_read rfl, by decide⟩
  · rw [parseBuy_iff]
    intro h
    refine h.1 (by decide) ?_
    exact ⟨text "12", 12, 97, text "bc", rfl, numeral_of_read rfl, by decide⟩

/-! ## Round trip -/

theorem parseCommandName_append {name args : Bytes} (h : space ∉ name) :
    parseCommandName (name ++ space :: args) = (name, some args) := by
  unfold parseCommandName
  rw [splitFirst_append h]

theorem parseItemNameAndCount_print (itemName : Bytes) (quantity : Int32) :
    parseItemNameAndCount (some (itemName ++ space :: decimal quantity)) = (some itemName, quantity) := by
  simp only [parseItemNameAndCount, StringView.bytes, Option.getD_some,
    splitLast_append (space_not_mem_decimal quantity), fromChars_decimal]

theorem parseSell_print (orderType : SellOrderType) (itemName : Bytes) (quantity price : Int32) :
    Command.parseSell (some (orderType.toBytes ++ space ::
      (itemName ++ space :: decimal quantity ++ space :: decimal price))) =
        some (.sell orderType (some itemName) quantity price) := by
  simp only [Command.parseSell, Command.parseOrderType, StringView.bytes, Option.getD_some,
    splitFirst_append (space_not_mem_orderType orderType), parseSellOrderType_iff.2 rfl,
    splitLast_append (space_not_mem_decimal price), fromChars_decimal, parseItemNameAndCount_print]

/-- A request that names all of its arguments is parsed back, whatever the item is called. -/
theorem parse_print (itemName : Bytes) (quantity price sellOrderId bid : Int32) (orderType : SellOrderType) :
    parseRequest (text "deposit" ++ space :: (itemName ++ space :: decimal quantity)) =
      .command (.change (.deposit (some itemName) quantity)) ∧
    parseRequest (text "withdraw" ++ space :: (itemName ++ space :: decimal quantity)) =
      .command (.change (.withdraw (some itemName) quantity)) ∧
    parseRequest (text "sell" ++ space :: (orderType.toBytes ++ space ::
        (itemName ++ space :: decimal quantity ++ space :: decimal price))) =
      .command (.change (.sell orderType (some itemName) quantity price)) ∧
    parseRequest (text "buy" ++ space :: decimal sellOrderId) = .command (.change (.buy sellOrderId none)) ∧
    parseRequest (text "buy" ++ space :: (decimal sellOrderId ++ space :: decimal bid)) =
      .command (.change (.buy sellOrderId (some bid))) := by
  have hbuy : Command.parseBuy (some (decimal sellOrderId)) = some (.buy sellOrderId none) := by
    simp only [Command.parseBuy, StringView.bytes, Option.getD_some,
      splitFirst_none.2 (space_not_mem_decimal sellOrderId), Option.bind_eq_bind, Option.bind_some, fromChars_decimal]
  have hbid : Command.parseBuy (some (decimal sellOrderId ++ space :: decimal bid)) =
      some (.buy sellOrderId (some bid)) := by
    simp only [Command.parseBuy, StringView.bytes, Option.getD_some,
      splitFirst_append (space_not_mem_decimal sellOrderId), Option.bind_eq_bind, Option.bind_some, fromChars_decimal]
  refine ⟨?_, ?_, ?_, ?_, ?_⟩
  · simp only [parseRequest, parseCommandName_append (show space ∉ text "deposit" by decide)]
    rw [show commandParsers.lookup (text "deposit") = some fun args => (Command.parseDeposit args).map .change from rfl]
    simp only [Command.parseDeposit, parseItemNameAndCount_print, Option.map_some]
  · simp only [parseRequest, parseCommandName_append (show space ∉ text "withdraw" by decide)]
    rw [show commandParsers.lookup (text "withdraw") = some fun args => (Command.parseWithdraw args).map .change from rfl]
    simp only [Command.parseWithdraw, parseItemNameAndCount_print, Option.map_some]
  · simp only [parseRequest, parseCommandName_append (show space ∉ text "sell" by decide)]
    rw [show commandParsers.lookup (text "sell") = some fun args => (Command.parseSell args).map .change from rfl]
    simp only [parseSell_print, Option.map_some]
  · simp only [parseRequest, parseCommandName_append (show space ∉ text "buy" by decide)]
    rw [show commandParsers.lookup (text "buy") = some fun args => (Command.parseBuy args).map .change from rfl]
    simp only [hbuy, Option.map_some]
  · simp only [parseRequest, parseCommandName_append (show space ∉ text "buy" by decide)]
    rw [show commandParsers.lookup (text "buy") = some fun args => (Command.parseBuy args).map .change from rfl]
    simp only [hbid, Option.map_some]

end AuctionHouse
