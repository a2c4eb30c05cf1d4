/-
commands.cpp and commands_processor.cpp: how a request is split into a command name and arguments,
and how the arguments of each command are parsed.
-/
import AuctionHouse.Server.Commands
import AuctionHouse.Text.Numeral
import AuctionHouse.Text.Words

namespace AuctionHouse

open Text

def space : UInt8 := 32

/-! ## Numbers -/

/-- `INT_MIN`. -/
def intMin : ℤ := -2147483648

/-- The errors of `std::from_chars`. -/
inductive Errc where
  | invalidArgument
  | resultOutOfRange
  deriving DecidableEq

/-- `std::from_chars` of an `int`: the number that the characters start with and the characters
after it. -/
def fromChars (s : Bytes) : Except Errc (Int32 × Bytes) :=
  match readNumeral s with
  | none => .error .invalidArgument
  | some (n, rest) => if intMin ≤ n ∧ n ≤ intMax then .ok (Int32.ofInt n, rest) else .error .resultOutOfRange

/-! ## Arguments -/

/-- The last word is the quantity if it reads as a number, else the whole string is the item name. -/
def parseItemNameAndCount (args : StringView) : StringView × Int32 :=
  match splitLast space args.bytes with
  | none => (args, 1)
  | some (itemName, countStr) =>
    match fromChars countStr with
    | .ok (quantity, _) => (some itemName, quantity)
    | .error _ => (args, 1)

def parseSellOrderType (str : Bytes) : Option SellOrderType :=
  if str = text "immediate" then some .immediate
  else if str = text "auction" then some .auction
  else none

namespace Command

def parseDeposit (args : StringView) : Option Command :=
  let (itemName, quantity) := parseItemNameAndCount args
  some (.deposit itemName quantity)

def parseWithdraw (args : StringView) : Option Command :=
  let (itemName, quantity) := parseItemNameAndCount args
  some (.withdraw itemName quantity)

/-- The optional order type, immediate if there is none, and the arguments after it. -/
def parseOrderType (args : StringView) : SellOrderType × StringView :=
  match splitFirst space args.bytes with
  | none => (.immediate, args)
  | some (str, rest) =>
    match parseSellOrderType str with
    | some parsed => (parsed, some rest)
    | none => (.immediate, args)

def parseSell (args : StringView) : Option Command :=
  let (orderType, args) := parseOrderType args
  -- the price is the last word
  match splitLast space args.bytes with
  | none => none
  | some (args, priceStr) =>
    match fromChars priceStr with
    | .error _ => none
    | .ok (price, _) =>
      let (itemName, quantity) := parseItemNameAndCount (some args)
      some (.sell orderType itemName quantity price)

/-- The optional bid is everything after the first word. -/
def parseBuy (args : StringView) : Option Command := do
  let (args, bid) ← match splitFirst space args.bytes with
    | none => some (args.bytes, none)
    | some (args, bidStr) =>
      match fromChars bidStr with
      | .error _ => none
      | .ok (parsed, _) => some (args, some parsed)
  match fromChars args with
  | .error _ => none
  | .ok (sellOrderId, _) => some (.buy sellOrderId bid)

end Command

/-! ## Requests -/

/-- The alternatives of the variant `Command`. -/
inductive AnyCommand where
  | ping
  | whoami
  | quit
  | help
  | viewItems
  | viewSellOrders
  /-- `Deposit`, `Withdraw`, `Sell` and `Buy`. -/
  | change (command : Command)

/-- The first word is the command name and the rest are the arguments; without a space they are a
null view. -/
def parseCommandName (request : Bytes) : Bytes × StringView :=
  match splitFirst space request with
  | none => (request, none)
  | some (commandName, args) => (commandName, some args)

/-- `kCommandParsers`. -/
def commandParsers : List (Bytes × (StringView → Option AnyCommand)) := [
  (text "ping", fun _ => some .ping),
  (text "whoami", fun _ => some .whoami),
  (text "help", fun _ => some .help),
  (text "quit", fun _ => some .quit),
  (text "deposit", fun args => (Command.parseDeposit args).map .change),
  (text "withdraw", fun args => (Command.parseWithdraw args).map .change),
  (text "view_items", fun _ => some .viewItems),
  (text "sell", fun args => (Command.parseSell args).map .change),
  (text "buy", fun args => (Command.parseBuy args).map .change),
  (text "view_sell_orders", fun _ => some .viewSellOrders)]

/-- What `process_request` makes of a request before it executes a command. -/
inductive Parsed where
  | unknown (commandName : Bytes)
  | malformed (commandName : Bytes)
  | command (command : AnyCommand)

def parseRequest (request : Bytes) : Parsed :=
  let (commandName, args) := parseCommandName request
  match commandParsers.lookup commandName with
  | none => .unknown commandName
  | some parse =>
    match parse args with
    | none => .malformed commandName
    | some command => .command command

/-! ## What `from_chars` reads -/

/-- A text that starts with an `int` and goes on with something else. -/
def Trailing (word : Bytes) : Prop :=
  ∃ (numeral : Bytes) (n : Int32) (c : UInt8) (rest : Bytes),
    word = numeral ++ c :: rest ∧ Numeral numeral n.toInt ∧ isDigit c = false

theorem int_range (n : Int32) : intMin ≤ n.toInt ∧ n.toInt ≤ intMax := by
  have h1 := n.le_toInt
  have h2 := n.toInt_lt
  unfold intMin intMax
  omega

theorem fromChars_ok {s rest : Bytes} {n : Int32} :
    fromChars s = .ok (n, rest) ↔ readNumeral s = some (n.toInt, rest) := by
  unfold fromChars
  constructor
  · intro h
    split at h
    · cases h
    · rename_i m r hm
      split at h
      · rename_i hr
        cases h
        unfold intMin intMax at hr
        rw [hm, Int32.toInt_ofInt_of_le (by omega) (by omega)]
      · cases h
  · intro h
    rw [h]
    simp [int_range n]

/-- The whole word is read as a number exactly when it is a numeral of an `int`. -/
theorem fromChars_whole {word : Bytes} {n : Int32} : fromChars word = .ok (n, []) ↔ Numeral word n.toInt := by
  rw [fromChars_ok]
  exact ⟨numeral_of_read, Numeral.read⟩

theorem fromChars_trailing {word : Bytes} :
    Trailing word ↔ ∃ n rest, rest ≠ [] ∧ fromChars word = .ok (n, rest) := by
  constructor
  · rintro ⟨numeral, n, c, rest, rfl, hn, hc⟩
    refine ⟨n, c :: rest, List.cons_ne_nil _ _, fromChars_ok.2 (readNumeral_some.2 ⟨numeral, rfl, hn, ?_⟩)⟩
    intro b hb
    cases hb
    exact hc
  · rintro ⟨n, rest, hne, h⟩
    obtain ⟨numeral, rfl, hn, hr⟩ := readNumeral_some.1 (fromChars_ok.1 h)
    obtain ⟨c, rest, rfl⟩ := List.exists_cons_of_ne_nil hne
    exact ⟨numeral, n, c, rest, rfl, hn, hr c rfl⟩

/-- A word is a number, starts with one, or is not read as one. -/
theorem fromChars_cases (word : Bytes) :
    (∃ n : Int32, Numeral word n.toInt ∧ fromChars word = .ok (n, [])) ∨
      (Trailing word ∧ ∃ n rest, fromChars word = .ok (n, rest)) ∨
        (¬ Trailing word ∧ (∀ n : Int32, ¬ Numeral word n.toInt) ∧ ∃ e, fromChars word = .error e) := by
  rcases h : fromChars word with e | ⟨n, rest⟩
  · refine .inr (.inr ⟨fun ht => ?_, fun n hn => ?_, e, rfl⟩)
    · obtain ⟨n, rest, -, hr⟩ := fromChars_trailing.1 ht
      rw [h] at hr; cases hr
    · rw [fromChars_whole.2 hn] at h; cases h
  · by_cases hr : rest = []
    · subst hr
      exact .inl ⟨n, fromChars_whole.1 h, rfl⟩
    · exact .inr (.inl ⟨fromChars_trailing.2 ⟨n, rest, hr, h⟩, n, rest, rfl⟩)

theorem Trailing.not_numeral {word : Bytes} (h : Trailing word) (n : Int32) : ¬ Numeral word n.toInt := by
  intro hn
  obtain ⟨m, rest, hne, hr⟩ := fromChars_trailing.1 h
  rw [fromChars_whole.2 hn] at hr
  cases hr
  exact hne rfl

theorem space_not_mem {word : Bytes} {n : ℤ} (h : Numeral word n) : space ∉ word := by
  intro hs
  rcases h.mem hs with h | h
  · revert h; decide
  · revert h; decide

/-- An `int` is printed as a numeral of it. -/
theorem numeral_decimal (n : Int32) : Numeral (decimal n) n.toInt := numeral_repr n.toInt

theorem fromChars_decimal (n : Int32) : fromChars (decimal n) = .ok (n, []) :=
  fromChars_whole.2 (numeral_decimal n)

theorem space_not_mem_decimal (n : Int32) : space ∉ decimal n := space_not_mem (numeral_decimal n)

end AuctionHouse
