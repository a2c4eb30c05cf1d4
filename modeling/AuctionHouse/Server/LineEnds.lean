/-
Requests and names as telnet sends them, with CR and LF at the end. Nothing strips the line end: it
is harmless after a number, and elsewhere it becomes part of a command, an item or a user name.
-/
import AuctionHouse.Server.Grammar
import AuctionHouse.Server.Processor
import AuctionHouse.Store.Identity

namespace AuctionHouse

open Text

/-- What telnet sends at the end of a line. -/
def crlf : Bytes := [13, 10]

theorem space_not_mem_crlf : space ∉ crlf := by decide

theorem append_crlf_ne (l : Bytes) : l ++ crlf ≠ l := fun h => absurd (List.append_right_eq_self.1 h) (by decide)

theorem crlf_append_ne (l : Bytes) : crlf ++ l ≠ l := fun h => absurd (List.append_left_eq_self.1 h) (by decide)

/-! ## Arguments that end in a line end -/

theorem StringView.bytes_some (b : Bytes) : StringView.bytes (some b) = b := rfl

theorem fromChars_crlf (word : Bytes) :
    fromChars (word ++ crlf) = (fromChars word).map fun p => (p.1, p.2 ++ crlf) := by
  have hdigit : EndsDigits crlf := by
    intro c hc
    cases hc
    rfl
  unfold fromChars
  rw [readNumeral_extend hdigit (by decide) word]
  rcases readNumeral word with _ | ⟨n, rest⟩
  · rfl
  · simp only [Option.map_some]
    split <;> rfl

theorem parseOrderType_crlf (args : Bytes) : Command.parseOrderType (some (args ++ crlf)) =
    ((Command.parseOrderType (some args)).1, some ((Command.parseOrderType (some args)).2.bytes ++ crlf)) := by
  unfold Command.parseOrderType
  simp only [StringView.bytes, Option.getD_some, splitFirst_extend space_not_mem_crlf]
  rcases splitFirst space args with _ | ⟨str, rest⟩
  · rfl
  · simp only [Option.map_some]
    rcases parseSellOrderType str with _ | orderType
    · rfl
    · rfl

/-- The price is the last word, and a number. -/
theorem parseSell_crlf (args : Bytes) : Command.parseSell (some (args ++ crlf)) = Command.parseSell (some args) := by
  rw [parseSell_eq, parseSell_eq, parseOrderType_crlf]
  simp only [StringView.bytes_some, splitLast_extend space_not_mem_crlf]
  rcases splitLast space (Command.parseOrderType (some args)).2.bytes with _ | ⟨rest, word⟩
  · rfl
  · simp only [Option.map_some, fromChars_crlf]
    rcases fromChars word with e | ⟨price, tail⟩
    · rfl
    · rfl

/-- An order id and a bid are numbers. -/
theorem parseBuy_crlf (args : Bytes) : Command.parseBuy (some (args ++ crlf)) = Command.parseBuy (some args) := by
  unfold Command.parseBuy
  simp only [StringView.bytes_some, splitFirst_extend space_not_mem_crlf]
  rcases splitFirst space args with _ | ⟨idStr, bidStr⟩
  · simp only [Option.map_none, Option.bind_eq_bind, Option.bind_some, fromChars_crlf]
    rcases fromChars args with e | ⟨sellOrderId, tail⟩
    · rfl
    · rfl
  · simp only [Option.map_some, fromChars_crlf]
    rcases fromChars bidStr with e | ⟨bid, tail⟩
    · rfl
    · rfl

/-- The last word starts with an `int`. -/
def EndsInQuantity (args : Bytes) : Prop :=
  ∃ itemName word, args = itemName ++ space :: word ∧ space ∉ word ∧ Readable word

theorem endsInQuantity_iff {args : Bytes} :
    EndsInQuantity args ↔ ∃ p, splitLast space args = some p ∧ Readable p.2 := by
  constructor
  · rintro ⟨itemName, word, rfl, hword, hread⟩
    exact ⟨_, splitLast_append hword itemName, hread⟩
  · rintro ⟨⟨itemName, word⟩, hs, hread⟩
    obtain ⟨hargs, hword⟩ := splitLast_some.1 hs
    exact ⟨itemName, word, hargs, hword, hread⟩

theorem readable_crlf {word : Bytes} : Readable (word ++ crlf) ↔ Readable word := by
  rw [readable_iff, readable_iff, fromChars_crlf]
  rcases fromChars word with e | ⟨n, rest⟩
  · simp [Except.map]
  · simp [Except.map]

theorem endsInQuantity_crlf {args : Bytes} : EndsInQuantity (args ++ crlf) ↔ EndsInQuantity args := by
  rw [endsInQuantity_iff, endsInQuantity_iff, splitLast_extend space_not_mem_crlf]
  rcases splitLast space args with _ | ⟨itemName, word⟩
  · simp
  · simp [readable_crlf]

theorem parseItemNameAndCount_crlf {args : Bytes} (h : EndsInQuantity args) :
    parseItemNameAndCount (some (args ++ crlf)) = parseItemNameAndCount (some args) := by
  obtain ⟨⟨itemName, word⟩, hs, hread⟩ := endsInQuantity_iff.1 h
  obtain ⟨n, rest, hn⟩ := readable_iff.1 hread
  unfold parseItemNameAndCount
  simp only [StringView.bytes_some, splitLast_extend space_not_mem_crlf, hs, Option.map_some, fromChars_crlf, hn]
  rfl

/-- Without a quantity the arguments are an item name. -/
theorem parseItemNameAndCount_name {args : Bytes} (h : ¬ EndsInQuantity args) :
    parseItemNameAndCount (some args) = (some args, 1) := by
  unfold parseItemNameAndCount
  simp only [StringView.bytes_some]
  rcases hs : splitLast space args with _ | ⟨itemName, word⟩
  · rfl
  · rcases hn : fromChars word with e | ⟨n, rest⟩
    · simp only [hn]
    · exact absurd (endsInQuantity_iff.2 ⟨_, hs, readable_iff.2 ⟨n, rest, hn⟩⟩) h

/-! ## Requests that end in a line end -/

/-- Arguments that the parser of the command does not tell apart make the same request. -/
theorem parseRequest_args {commandName : Bytes} (hname : space ∉ commandName) {args args' : Bytes}
    (h : ∀ p ∈ commandParsers, p.1 = commandName → p.2 (some args') = p.2 (some args)) :
    parseRequest (commandName ++ space :: args') = parseRequest (commandName ++ space :: args) := by
  simp only [parseRequest, parseCommandName_append hname]
  rcases hl : commandParsers.lookup commandName with _ | parse
  · rfl
  · obtain ⟨l₁, l₂, hl, -⟩ := List.lookup_eq_some_iff.1 hl
    have hp : (commandName, parse) ∈ commandParsers := by
      rw [hl]
      exact List.mem_append_right _ List.mem_cons_self
    simp only [show parse (some args') = parse (some args) from h _ hp rfl]

theorem parseRequest_crlf {commandName args : Bytes} (hname : space ∉ commandName)
    (h : commandName = text "deposit" ∨ commandName = text "withdraw" → EndsInQuantity args) :
    parseRequest (commandName ++ space :: args ++ crlf) = parseRequest (commandName ++ space :: args) := by
  rw [List.append_assoc, List.cons_append]
  refine parseRequest_args hname fun p hp hn => ?_
  subst hn
  simp only [commandParsers, List.mem_cons, List.not_mem_nil, or_false] at hp
  rcases hp with rfl | rfl | rfl | rfl | rfl | rfl | rfl | rfl | rfl | rfl
  · rfl
  · rfl
  · rfl
  · rfl
  · simp only [Command.parseDeposit, parseItemNameAndCount_crlf (h (.inl rfl))]
  · simp only [Command.parseWithdraw, parseItemNameAndCount_crlf (h (.inr rfl))]
  · rfl
  · simp only [parseSell_crlf]
  · simp only [parseBuy_crlf]
  · rfl

theorem parseCommandName_bare {request : Bytes} (h : space ∉ request) : parseCommandName request = (request, none) := by
  unfold parseCommandName
  rw [splitFirst_none.2 h]

/-- No command name ends in a line end. -/
theorem parseRequest_bare_crlf {request : Bytes} (h : space ∉ request) :
    parseRequest (request ++ crlf) = .unknown (request ++ crlf) := by
  have hspace : space ∉ request ++ crlf := by
    rw [List.mem_append, not_or]
    exact ⟨h, space_not_mem_crlf⟩
  have hnames : ∀ name ∈ commandParsers.map Prod.fst, 10 ∉ name := by decide
  have hlookup : commandParsers.lookup (request ++ crlf) = none := by
    rw [List.lookup_eq_none_iff]
    intro p hp
    rw [bne_iff_ne]
    intro he
    refine hnames p.1 (List.mem_map_of_mem hp) ?_
    rw [← he]
    exact List.mem_append_right _ (by decide)
  simp only [parseRequest, parseCommandName_bare hspace, hlookup]

/-! ## Replies -/

/-- The reply to a command that there is not. -/
def unknownCommand (commandName : Bytes) : Bytes :=
  text "Failed to execute unknown command '" ++ commandName ++ text "'. " ++ helpString

/-- Texts of which neither starts with the other differ whatever follows them. -/
theorem append_ne_append {a b : Bytes} (h : ¬ (a <+: b ∨ b <+: a)) (x y : Bytes) : a ++ x ≠ b ++ y := by
  intro he
  refine h (List.prefix_or_prefix_of_prefix (List.prefix_append a x) ?_)
  rw [he]
  exact List.prefix_append b y

theorem unknownCommand_crlf_ne (commandName : Bytes) :
    unknownCommand (commandName ++ crlf) ≠ unknownCommand commandName := by
  unfold unknownCommand
  simp only [List.append_assoc, ne_eq, List.append_cancel_left_eq]
  exact crlf_append_ne _

/-- What a deposit or a withdrawal replies. -/
def Answers (failed succeeded : Bytes) (quantity : Int32) (itemName : StringView) (response : Bytes) : Prop :=
  (∃ e, response = failed ++ Command.amount quantity itemName ++ text " with error: " ++ e) ∨
    response = succeeded ++ Command.amount quantity itemName

theorem executeDeposit_answers (userId : UserId) (itemName : StringView) (quantity : Int32) (s : SharedState) :
    Answers (text "Failed to deposit ") (text "Successfully deposited ") quantity itemName
      (Command.executeDeposit userId itemName quantity s).1 := by
  unfold Command.executeDeposit
  rw [state_bind]
  rcases SharedState.onStorage (fun _ => AuctionService.deposit userId itemName quantity) [] s with ⟨e | info, s'⟩
  · exact .inl ⟨e, rfl⟩
  · exact .inr rfl

theorem executeWithdraw_answers (userId : UserId) (itemName : StringView) (quantity : Int32) (s : SharedState) :
    Answers (text "Failed to withdraw ") (text "Successfully withdrawn ") quantity itemName
      (Command.executeWithdraw userId itemName quantity s).1 := by
  unfold Command.executeWithdraw
  rw [state_bind]
  rcases SharedState.onStorage (fun st => AuctionService.withdraw st userId itemName quantity) [] s with ⟨e | info, s'⟩
  · exact .inl ⟨e, rfl⟩
  · exact .inr rfl

/-- The reply shows a line end in the item name. -/
theorem Answers.crlf_ne {failed succeeded : Bytes} (h : ¬ (failed <+: succeeded ∨ succeeded <+: failed))
    {quantity : Int32} {itemName response response' : Bytes}
    (hr : Answers failed succeeded quantity (some itemName) response)
    (hr' : Answers failed succeeded quantity (some (itemName ++ crlf)) response') : response' ≠ response := by
  rcases hr with ⟨e, rfl⟩ | rfl
  · rcases hr' with ⟨e', rfl⟩ | rfl
    · -- the name ends in the line end or in a parenthesis
      intro he
      simp only [Command.amount, StringView.bytes_some, List.append_assoc, List.append_cancel_left_eq] at he
      exact append_ne_append (by decide) _ _ he
    · rw [List.append_assoc, List.append_assoc]
      exact (append_ne_append h _ _).symm
  · rcases hr' with ⟨e', rfl⟩ | rfl
    · rw [List.append_assoc, List.append_assoc]
      exact append_ne_append h _ _
    · intro he
      simp only [Command.amount, StringView.bytes_some, List.append_assoc, List.append_cancel_left_eq] at he
      exact crlf_append_ne _ he

/-- What starts otherwise does not say that a command is unknown. -/
theorem ne_unknownCommand {start : Bytes} (h : ¬ (start <+: text "Failed to execute unknown command '" ∨
    text "Failed to execute unknown command '" <+: start)) (rest commandName : Bytes) :
    start ++ rest ≠ unknownCommand commandName := by
  unfold unknownCommand
  rw [List.append_assoc, List.append_assoc]
  exact append_ne_append h _ _

theorem Answers.ne_unknownCommand {failed succeeded : Bytes} {quantity : Int32} {itemName : StringView}
    {response commandName : Bytes} (hr : Answers failed succeeded quantity itemName response)
    (hf : ∀ rest, failed ++ rest ≠ unknownCommand commandName)
    (hs : ∀ rest, succeeded ++ rest ≠ unknownCommand commandName) : response ≠ unknownCommand commandName := by
  rcases hr with ⟨e, rfl⟩ | rfl
  · rw [List.append_assoc, List.append_assoc]
    exact hf _
  · exact hs _

theorem helpString_ne_unknown (commandName : Bytes) : helpString ≠ unknownCommand commandName := by
  have happend (a b : String) : text (a ++ b) = text a ++ text b := by
    unfold text
    rw [String.toList_append, List.map_append]
  generalize hu : unknownCommand commandName = unknown
  unfold helpString helpLines
  rw [String.intercalate_cons_of_ne_nil (List.cons_ne_nil _ _), happend, happend, List.append_assoc, ← hu]
  exact ne_unknownCommand (by decide) _ _

/-- No command replies that it is unknown. -/
theorem execute_ne_unknown (userId : UserId) (unixNow : ℤ) (command : Command) (s : SharedState) (commandName : Bytes) :
    (command.execute userId unixNow s).1 ≠ unknownCommand commandName := by
  rcases command with ⟨itemName, quantity⟩ | ⟨itemName, quantity⟩ | ⟨orderType, itemName, quantity, price⟩ |
    ⟨sellOrderId, _ | bid⟩
  · exact (executeDeposit_answers userId itemName quantity s).ne_unknownCommand
      (fun rest => ne_unknownCommand (by decide) rest _)
      (fun rest => ne_unknownCommand (by decide) rest _)
  · exact (executeWithdraw_answers userId itemName quantity s).ne_unknownCommand
      (fun rest => ne_unknownCommand (by decide) rest _)
      (fun rest => ne_unknownCommand (by decide) rest _)
  · show (Command.executeSell userId orderType itemName quantity price unixNow s).1 ≠ _
    unfold Command.executeSell
    rw [state_bind]
    rcases SharedState.onStorage _ [] s with ⟨e | info, s'⟩
    · show text "Failed to place " ++ _ ++ _ ++ _ ++ _ ++ _ ≠ _
      simp only [List.append_assoc]
      exact ne_unknownCommand (by decide) _ _
    · show text "Successfully placed " ++ _ ++ _ ++ _ ≠ _
      simp only [List.append_assoc]
      exact ne_unknownCommand (by decide) _ _
  · show (Command.executeBuy userId sellOrderId none s).1 ≠ _
    simp only [Command.executeBuy, state_bind]
    rcases SharedState.onStorage _ [] s with ⟨e | info, s'⟩
    · show text "Failed to execute #" ++ _ ++ _ ++ _ ≠ _
      simp only [List.append_assoc]
      exact ne_unknownCommand (by decide) _ _
    · show text "Successfully executed #" ++ _ ++ _ ≠ _
      simp only [List.append_assoc]
      exact ne_unknownCommand (by decide) _ _
  · show (Command.executeBuy userId sellOrderId (some bid) s).1 ≠ _
    simp only [Command.executeBuy, state_bind]
    rcases SharedState.onStorage _ [] s with ⟨e | ⟨⟩, s'⟩
    · show text "Failed to place a bid on #" ++ _ ++ _ ++ _ ≠ _
      simp only [List.append_assoc]
      exact ne_unknownCommand (by decide) _ _
    · show text "Successfully placed a bid on #" ++ _ ++ _ ≠ _
      simp only [List.append_assoc]
      exact ne_unknownCommand (by decide) _ _

theorem executeViewItems_ne_unknown (user : User) (s : SharedState) (commandName : Bytes) :
    (AnyCommand.executeViewItems user s).1 ≠ .reply (unknownCommand commandName) := by
  simp only [AnyCommand.executeViewItems, state_bind]
  rcases SharedState.onStorage _ [] s with ⟨e | items, s'⟩
  · refine fun he => ne_unknownCommand ?_ _ commandName (Response.reply.inj he)
    decide
  · intro he
    have he := Response.reply.inj he
    rw [List.append_assoc] at he
    exact ne_unknownCommand (by decide) _ _ he

theorem executeViewSellOrders_ne_unknown (s : SharedState) (commandName : Bytes) :
    (AnyCommand.executeViewSellOrders s).1 ≠ .reply (unknownCommand commandName) := by
  simp only [AnyCommand.executeViewSellOrders, state_bind]
  rcases SharedState.onStorage _ [] s with ⟨e | _ | orders, s'⟩
  · exact fun he => ne_unknownCommand (by decide) _ _ (Response.reply.inj he)
  · rintro ⟨⟩
  · exact fun he => ne_unknownCommand (by decide) _ _ (Response.reply.inj he)

/-! ## Which requests mean the same -/

/-- In front of a line end the request does the same to the tables and gets the same response. -/
def SameRequest (user : User) (unixNow : ℤ) (s : SharedState) (request : Bytes) : Prop :=
  (processRequest user unixNow (request ++ crlf) s).1 = (processRequest user unixNow request s).1 ∧
    (processRequest user unixNow (request ++ crlf) s).2.db = (processRequest user unixNow request s).2.db

/-- The command has arguments, which for a deposit or a withdrawal end in a quantity; or `whoami` is
asked by a user who is named like the reply to it. -/
def Tolerant (user : User) (request : Bytes) : Prop :=
  match parseCommandName request with
  | (commandName, some args) =>
    commandName = text "deposit" ∨ commandName = text "withdraw" → EndsInQuantity args
  | (commandName, none) => commandName = text "whoami" ∧ user.username = unknownCommand (commandName ++ crlf)

theorem processRequest_unknown {user : User} {unixNow : ℤ} {request commandName : Bytes}
    (h : parseRequest request = .unknown commandName) (s : SharedState) :
    processRequest user unixNow request s = (.reply (unknownCommand commandName), s) := by
  unfold processRequest
  rw [h]
  rfl

theorem parseRequest_whoami {request : Bytes} :
    parseRequest request = .command .whoami ↔ (parseCommandName request).1 = text "whoami" :=
  parseRequest_bare (by simp [commandParsers]) rfl

/-- A request without arguments, other than `whoami`, is not answered as an unknown one. -/
theorem bare_reply_ne {user : User} {unixNow : ℤ} {request : Bytes} (h : space ∉ request)
    (hwho : request = text "whoami" → user.username ≠ unknownCommand (request ++ crlf)) (s : SharedState) :
    (processRequest user unixNow request s).1 ≠ .reply (unknownCommand (request ++ crlf)) := by
  have hname := parseCommandName_bare h
  rcases hp : parseRequest request with name | name | command
  · have hn : name = request := by
      unfold parseRequest at hp
      rw [hname] at hp
      simp only at hp
      split at hp
      · cases hp
        rfl
      · split at hp <;> cases hp
    rw [processRequest_unknown hp, hn]
    intro he
    exact unknownCommand_crlf_ne request (Response.reply.inj he).symm
  · unfold processRequest
    rw [hp]
    show Response.reply (text "Failed to parse arguments for command '" ++ _ ++ _) ≠ _
    rw [List.append_assoc]
    exact fun he => ne_unknownCommand (by decide) _ _ (Response.reply.inj he)
  rw [processRequest_command hp]
  have hreply {response : Bytes} (hne : response ≠ unknownCommand (request ++ crlf)) :
      Response.reply response ≠ .reply (unknownCommand (request ++ crlf)) := fun he => hne (Response.reply.inj he)
  cases command with
  | ping =>
    refine hreply ?_
    rw [← List.append_nil (text "pong")]
    exact ne_unknownCommand (by decide) _ _
  | whoami =>
    have hr := parseRequest_whoami.1 hp
    rw [hname] at hr
    exact hreply (hwho hr)
  | quit => rintro ⟨⟩
  | help => exact hreply (helpString_ne_unknown _)
  | viewItems => exact executeViewItems_ne_unknown user s _
  | viewSellOrders => exact executeViewSellOrders_ne_unknown s _
  | change command => exact hreply (execute_ne_unknown user.id unixNow command s _)

/-- Without a quantity, the arguments of a deposit or a withdrawal are an item name. -/
theorem parseRequest_named {commandName : Bytes} {f : StringView → Int32 → Command}
    (hname : space ∉ commandName) (hlookup : commandParsers.lookup commandName = some fun args =>
      (some (f (parseItemNameAndCount args).1 (parseItemNameAndCount args).2)).map .change)
    {args : Bytes} (h : ¬ EndsInQuantity args) :
    parseRequest (commandName ++ space :: args) = .command (.change (f (some args) 1)) := by
  simp only [parseRequest, parseCommandName_append hname, hlookup, parseItemNameAndCount_name h, Option.map_some]

section
variable {user : User} {unixNow : ℤ} {args : Bytes} (h : ¬ EndsInQuantity args) (s : SharedState)
include h

/-- The line end becomes part of the item name, which the reply shows. -/
theorem named_reply_ne {commandName failed succeeded : Bytes} {f : StringView → Int32 → Command}
    (hname : space ∉ commandName) (hlookup : commandParsers.lookup commandName = some fun args =>
      (some (f (parseItemNameAndCount args).1 (parseItemNameAndCount args).2)).map .change)
    (hanswers : ∀ itemName, Answers failed succeeded 1 itemName ((f itemName 1).execute user.id unixNow s).1)
    (hapart : ¬ (failed <+: succeeded ∨ succeeded <+: failed)) :
    (processRequest user unixNow (commandName ++ space :: (args ++ crlf)) s).1 ≠
      (processRequest user unixNow (commandName ++ space :: args) s).1 := by
  have h' := fun hq => h (endsInQuantity_crlf.1 hq)
  rw [processRequest_command (parseRequest_named hname hlookup h),
    processRequest_command (parseRequest_named hname hlookup h')]
  intro he
  exact (hanswers (some args)).crlf_ne hapart (hanswers (some (args ++ crlf))) (Response.reply.inj he)

theorem counted_reply_ne {commandName : Bytes} (hc : commandName = text "deposit" ∨ commandName = text "withdraw") :
    (processRequest user unixNow (commandName ++ space :: (args ++ crlf)) s).1 ≠
      (processRequest user unixNow (commandName ++ space :: args) s).1 := by
  rcases hc with rfl | rfl
  · exact named_reply_ne h s (f := .deposit) (by decide) rfl
      (fun itemName => executeDeposit_answers user.id itemName 1 s) (by decide)
  · exact named_reply_ne h s (f := .withdraw) (by decide) rfl
      (fun itemName => executeWithdraw_answers user.id itemName 1 s) (by decide)

end

/-- A request keeps its meaning in front of a line end exactly when it is tolerant of it. -/
theorem sameRequest_iff (user : User) (unixNow : ℤ) (s : SharedState) (request : Bytes) :
    SameRequest user unixNow s request ↔ Tolerant user request := by
  by_cases hspace : space ∈ request
  · obtain ⟨commandName, args, rfl, hname⟩ := List.eq_append_cons_of_mem hspace
    simp only [Tolerant, parseCommandName_append hname]
    by_cases hq : commandName = text "deposit" ∨ commandName = text "withdraw" → EndsInQuantity args
    · refine iff_of_true ?_ hq
      have hparse := parseRequest_crlf hname hq
      constructor
      · unfold processRequest
        rw [hparse]
      · unfold processRequest
        rw [hparse]
    · refine iff_of_false ?_ hq
      rintro ⟨hreply, -⟩
      rw [Classical.not_imp] at hq
      rw [List.append_assoc, List.cons_append] at hreply
      exact counted_reply_ne hq.2 s hq.1 hreply
  · have hunknown := @processRequest_unknown user unixNow _ _ (parseRequest_bare_crlf hspace) s
    simp only [SameRequest, Tolerant, parseCommandName_bare hspace, hunknown]
    constructor
    · rintro ⟨hreply, -⟩
      by_contra hn
      exact bare_reply_ne hspace (fun hw hu => hn ⟨hw, hu⟩) s hreply.symm
    · rintro ⟨rfl, hu⟩
      have hwho := parseRequest_whoami.2 (congrArg Prod.fst (parseCommandName_bare hspace))
      rw [processRequest_command hwho]
      exact ⟨congrArg Response.reply hu.symm, rfl⟩

/-! ## Names -/

/-- The user whom the name logs in is logged in by the name in front of a line end, too. So it is of a name
that logs in nobody, as the empty name, which in front of a line end is a name like any other. -/
def SameUser (st : Storage) (db : Database) (name : Bytes) : Prop :=
  ∀ user, Call.reply st ⟨.login (some name), []⟩ db = .ok (.user user) →
    ∃ user', Call.reply st ⟨.login (some (name ++ crlf)), []⟩ (Call.next st ⟨.login (some name), []⟩ db) =
      .ok (.user user') ∧ user'.id = user.id

/-- The name is somebody's, or there is an id for a new user. -/
def CanLogIn (t : Tables) (name : Bytes) : Prop :=
  name ≠ [] ∧ ((∃ u ∈ t.users, u.username = name) ∨ NewUser t (some name))

theorem canLogIn_iff {st : Storage} {db : Database} (hi : Invariant st db.toTables) {name : Bytes} :
    CanLogIn db.toTables name ↔ ∃ user, Call.reply st ⟨.login (some name), []⟩ db = .ok (.user user) := by
  have hmap : (∃ user, Call.reply st ⟨.login (some name), []⟩ db = .ok (.user user)) ↔
      ∃ user, Sql.outcome (UserService.login st (some name) (Sql.Connection.idle db)) = .ok user := by
    rw [login_reply]
    rcases Sql.outcome (UserService.login st (some name) (Sql.Connection.idle db)) with e | user
    · simp [Except.map]
    · simp [Except.map]
  rw [hmap, login_succeeds, and_iff_left hi.hasFunds]
  simp only [CanLogIn, StringView.bytes_some, Option.some.injEq]

theorem sameUser_iff (calls : List Call) (name : Bytes) :
    SameUser Storage.initial (reached calls) name ↔ ¬ CanLogIn (reached calls).toTables name := by
  rw [canLogIn_iff (reached_invariant calls)]
  constructor
  · rintro h ⟨user, huser⟩
    obtain ⟨user', huser', hid⟩ := h user huser
    obtain ⟨u, hu, hn, rfl⟩ := login_row (reached_invariant calls) huser
    rw [← reached_concat] at huser' hu
    obtain ⟨u', hu', hn', rfl⟩ := login_row (reached_invariant _) huser'
    -- both rows are there in the end, and users do not share an id
    replace hu := (usersLast_next (reached_invariant _) (.login (some (name ++ crlf)))).mem hu
    have hv := (Call.next Storage.initial ⟨.login (some (name ++ crlf)), []⟩
      (reached (calls ++ [⟨.login (some name), []⟩]))).valid
    have hids : u'.id = u.id := by
      rw [← fits_user hv ⟨u', hu', rfl⟩, ← fits_user hv ⟨u, hu, rfl⟩]
      exact congrArg Int32.toInt hid
    have hsame := List.inj_on_of_nodup_map hv.userIds hu' hu hids
    rw [hsame, ← hn] at hn'
    exact append_crlf_ne name (Option.some.inj hn')
  · intro h user huser
    exact absurd ⟨user, huser⟩ h

/-! ## Telnet -/

/-- For alice, who is logged in, `ping` becomes an unknown command and `deposit sword` creates an
item with a line end in its name; with a line end her own name is that of a new user. -/
theorem telnet_misread :
    let alice : User := ⟨1, text "alice"⟩
    let db := reached [⟨.login (some alice.username), []⟩]
    let s : SharedState := { SharedState.initial with db }
    ¬ SameRequest alice 0 s (text "ping") ∧ ¬ SameRequest alice 0 s (text "deposit sword") ∧
      (processRequest alice 0 (text "deposit sword" ++ crlf) s).2.db.items =
        [⟨1, fundsItemName⟩, ⟨2, text "sword" ++ crlf⟩] ∧
      ¬ SameUser Storage.initial db alice.username ∧
      Call.reply Storage.initial ⟨.login (some (alice.username ++ crlf)), []⟩ db =
        .ok (.user ⟨2, alice.username ++ crlf⟩) := by
  intro alice db s
  refine ⟨?_, ?_, ?_, ?_, ?_⟩
  · rw [sameRequest_iff]
    simp only [Tolerant, parseCommandName_bare (show space ∉ text "ping" by decide)]
    rintro ⟨h, -⟩
    exact absurd h (by decide)
  · rw [sameRequest_iff, show text "deposit sword" = text "deposit" ++ space :: text "sword" from rfl]
    simp only [Tolerant, parseCommandName_append (show space ∉ text "deposit" by decide)]
    intro h
    obtain ⟨p, hs, -⟩ := endsInQuantity_iff.1 (h (.inl trivial))
    rw [splitLast_none.2 (by decide)] at hs
    cases hs
  · decide +kernel
  · rw [sameUser_iff, not_not]
    exact ⟨by decide, .inl ⟨⟨1, text "alice"⟩, by decide +kernel, rfl⟩⟩
  · decide +kernel

/-- A request keeps its meaning in front of a line end exactly when it is tolerant of it, and a name
keeps its user only if it logs in nobody. -/
theorem line_end_kept_iff (user : User) (unixNow : ℤ) (s : SharedState) (request : Bytes) (calls : List Call)
    (name : Bytes) :
    (SameRequest user unixNow s request ↔ Tolerant user request) ∧
      (SameUser Storage.initial (reached calls) name ↔ ¬ CanLogIn (reached calls).toTables name) :=
  ⟨sameRequest_iff user unixNow s request, sameUser_iff calls name⟩

end AuctionHouse
