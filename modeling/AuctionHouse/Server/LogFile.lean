/-
transaction_log.cpp: the log as it is in its file. An entry is a line, and what a line says can be
read from it, so whoever has the file, or what is left of it, has the entries.
-/
import AuctionHouse.Server.Parsing
import AuctionHouse.Store.Coalition
import AuctionHouse.Text.Lines

namespace AuctionHouse

open Text

def newline : UInt8 := 10

def equals : UInt8 := 61

def colon : UInt8 := 58

def closing : UInt8 := 125

/-- What `fmt` prints of a time in seconds. -/
structure Timestamp (t : Bytes) : Prop where
  colon : colon ∉ t
  newline : newline ∉ t

/-- What `log` writes to the file. -/
def LogEntry.written (timestamp : Bytes) (e : LogEntry) : Bytes := timestamp ++ text ": " ++ e.line

/-- The file with entries that were written at some times. -/
def TransactionLog.file (l : List (Bytes × LogEntry)) : Bytes := l.flatMap fun x => x.2.written x.1

/-! ## Messages -/

theorem decimal_injective : Function.Injective decimal := fun m n h =>
  Int32.toInt_inj.1 ((numeral_decimal m).unique (h ▸ numeral_decimal n))

/-- A byte that is in no numeral. -/
theorem not_mem_decimal {c : UInt8} (hm : c ≠ minus) (hd : isDigit c = false) (n : Int32) : c ∉ decimal n := by
  intro hc
  rcases (numeral_decimal n).mem hc with h | h
  · exact hm h
  · rw [hd] at h
    cases h

/-- The last field of a message is read from its end. -/
theorem field_inj {a b k l : Bytes} {m n : Int32} (hk : k.getLast? = some equals) (hl : l.getLast? = some equals)
    (h : a ++ k ++ decimal m = b ++ l ++ decimal n) : a ++ k = b ++ l ∧ m = n := by
  have hsplit : ∀ {k : Bytes}, k.getLast? = some equals → ∀ (a : Bytes) (n : Int32), ∃ before, k = before ++ [equals] ∧
      splitLast equals (a ++ k ++ decimal n) = some (a ++ before, decimal n) := by
    intro k hk a n
    obtain ⟨before, rfl⟩ := List.getLast?_eq_some_iff.1 hk
    refine ⟨before, rfl, ?_⟩
    rw [← List.append_assoc, List.append_assoc, List.singleton_append]
    exact splitLast_append (not_mem_decimal (by decide) (by decide) n) (a ++ before)
  obtain ⟨before, rfl, hs⟩ := hsplit hk a m
  obtain ⟨before', rfl, hs'⟩ := hsplit hl b n
  rw [h, hs'] at hs
  obtain ⟨hbefore, hdecimal⟩ := Prod.mk.inj (Option.some.inj hs)
  refine ⟨?_, decimal_injective hdecimal.symm⟩
  rw [← List.append_assoc, ← List.append_assoc, hbefore]

theorem field_inj_same {a b k : Bytes} {m n : Int32} (hk : k.getLast? = some equals)
    (h : a ++ k ++ decimal m = b ++ k ++ decimal n) : a = b ∧ m = n := by
  obtain ⟨h, hn⟩ := field_inj hk hk h
  exact ⟨List.append_cancel_right h, hn⟩

namespace LogMessage

/-- An entry of an executed order says all of it. -/
theorem order_inj {what what' : Bytes} {i q p id i' q' p' id' : Int32}
    (h : text.order what i q p id = text.order what' i' q' p' id') :
    what = what' ∧ i = i' ∧ q = q' ∧ p = p' ∧ id = id' := by
  unfold text.order at h
  obtain ⟨h, hid⟩ := field_inj_same (by decide) h
  obtain ⟨h, hp⟩ := field_inj_same (by decide) h
  obtain ⟨h, hq⟩ := field_inj_same (by decide) h
  obtain ⟨h, hi⟩ := field_inj_same (by decide) h
  exact ⟨h, hi, hq, hp, hid⟩

/-- An entry of an operation with items ends with another field. -/
theorem item_ne_order {name what : Bytes} {j n i q p id : Int32} :
    (LogMessage.item name j n).text ≠ text.order what i q p id := by
  intro h
  unfold LogMessage.text text.order at h
  obtain ⟨h, -⟩ := field_inj (by decide) (by decide) h
  have hlength : (AuctionHouse.text " .quantity=").length = (AuctionHouse.text " .order_id=").length := by decide
  exact absurd (List.append_inj' h hlength).2 (by decide)

theorem text_injective : Function.Injective LogMessage.text := by
  intro m m' h
  cases m with
  | item name i q =>
    cases m' with
    | item name' i' q' =>
      obtain ⟨hfirst, rfl⟩ := field_inj_same (by decide) h
      obtain ⟨rfl, rfl⟩ := field_inj_same (by decide) hfirst
      rfl
    | sold => exact absurd h item_ne_order
    | bought => exact absurd h item_ne_order
  | sold i q p id =>
    cases m' with
    | item => exact absurd h.symm item_ne_order
    | sold =>
      obtain ⟨-, rfl, rfl, rfl, rfl⟩ := order_inj h
      rfl
    | bought => exact absurd (order_inj h).1 (by decide)
  | bought i q p id =>
    cases m' with
    | item => exact absurd h.symm item_ne_order
    | sold => exact absurd (order_inj h).1 (by decide)
    | bought =>
      obtain ⟨-, rfl, rfl, rfl, rfl⟩ := order_inj h
      rfl

end LogMessage

/-! ## Lines -/

/-- A line of the file says when which user did what. -/
theorem LogEntry.written_inj {t t' : Bytes} (ht : Timestamp t) (ht' : Timestamp t') {e e' : LogEntry}
    (h : e.written t = e'.written t') : t = t' ∧ e = e' := by
  have hcolon : ∀ {t : Bytes}, Timestamp t → ∀ e : LogEntry,
      splitFirst colon (e.written t) = some (t, text " " ++ e.line) := by
    intro t ht e
    show splitFirst colon (t ++ text ": " ++ e.line) = _
    rw [List.append_assoc]
    exact splitFirst_append ht.colon _
  have hs := hcolon ht e
  rw [h, hcolon ht' e'] at hs
  obtain ⟨rfl, hline⟩ := Prod.mk.inj (Option.some.inj hs)
  refine ⟨rfl, ?_⟩
  have hid : ∀ e : LogEntry, splitFirst closing ((text " " ++ e.line).drop 10) =
      some (decimal e.userId, text " " ++ e.message.text ++ text "\n") := by
    intro e
    have hdrop : (text " " ++ e.line).drop 10 =
        decimal e.userId ++ closing :: (text " " ++ e.message.text ++ text "\n") := by
      unfold LogEntry.line
      simp only [List.append_assoc]
      rfl
    rw [hdrop]
    exact splitFirst_append (not_mem_decimal (by decide) (by decide) _) _
  have hs := hid e
  rw [← hline, hid e'] at hs
  obtain ⟨huser, hmessage⟩ := Prod.mk.inj (Option.some.inj hs)
  obtain ⟨u, m⟩ := e
  obtain ⟨u', m'⟩ := e'
  obtain rfl := decimal_injective huser
  obtain rfl := LogMessage.text_injective (List.append_cancel_left (List.append_cancel_right hmessage))
  rfl

/-- A message without a line end. -/
def LogMessage.OneLine (m : LogMessage) : Prop := newline ∉ m.text

/-- A line of the file without its end. -/
def LogEntry.body (x : Bytes × LogEntry) : Bytes :=
  x.1 ++ text ": user\x7b.id=" ++ decimal x.2.userId ++ text "\x7d " ++ x.2.message.text

theorem LogEntry.written_eq (x : Bytes × LogEntry) : x.2.written x.1 = body x ++ [newline] := by
  unfold written line body
  simp only [List.append_assoc]
  rfl

theorem TransactionLog.file_eq (l : List (Bytes × LogEntry)) : file l = unlines newline (l.map LogEntry.body) := by
  unfold file unlines
  rw [List.flatMap_map]
  exact List.flatMap_congr fun x _ => LogEntry.written_eq x

/-- The same lines are the same entries at the same times. -/
theorem LogEntry.bodies_inj : ∀ {l l' : List (Bytes × LogEntry)}, (∀ x ∈ l, Timestamp x.1) →
    (∀ x ∈ l', Timestamp x.1) → l.map body = l'.map body → l = l'
  | [], [], _, _, _ => rfl
  | [], _ :: _, _, _, h => by cases h
  | _ :: _, [], _, _, h => by cases h
  | x :: l, x' :: l', ht, ht', h => by
    obtain ⟨hx, hl⟩ := List.cons.inj h
    have hwritten : x.2.written x.1 = x'.2.written x'.1 := by rw [written_eq, written_eq, hx]
    obtain ⟨h1, h2⟩ := written_inj (ht x List.mem_cons_self) (ht' x' List.mem_cons_self) hwritten
    rw [bodies_inj (fun y hy => ht y (List.mem_cons_of_mem _ hy)) (fun y hy => ht' y (List.mem_cons_of_mem _ hy)) hl,
      Prod.ext h1 h2]

theorem LogEntry.newline_not_mem_body {x : Bytes × LogEntry} (ht : Timestamp x.1) (hm : x.2.message.OneLine) :
    newline ∉ body x := by
  have hdecimal := not_mem_decimal (c := newline) (by decide) (by decide) x.2.userId
  have h1 : newline ∉ text ": user\x7b.id=" := by decide
  have h2 : newline ∉ text "\x7d " := by decide
  unfold body
  simp only [List.mem_append, not_or]
  exact ⟨⟨⟨⟨ht.newline, h1⟩, hdecimal⟩, h2⟩, hm⟩

/-- What the server enters into its log are messages of one line. -/
theorem Posting.oneLine (p : Posting) : ∀ e ∈ p.entries, e.message.OneLine := by
  have hdecimal := not_mem_decimal (c := newline) (by decide) (by decide)
  have hitem : ∀ {name : Bytes}, newline ∉ name → ∀ i q, (LogMessage.item name i q).OneLine := by
    intro name hname i q
    have h1 : newline ∉ text " .item_id=" := by decide
    have h2 : newline ∉ text " .quantity=" := by decide
    unfold LogMessage.OneLine LogMessage.text
    simp only [List.mem_append, not_or]
    exact ⟨⟨⟨⟨hname, h1⟩, hdecimal i⟩, h2⟩, hdecimal q⟩
  have horder : ∀ {what : Bytes}, newline ∉ what → ∀ i q p id, newline ∉ LogMessage.text.order what i q p id := by
    intro what hwhat i q p id
    have h1 : newline ∉ text " .item_id=" := by decide
    have h2 : newline ∉ text " .quantity=" := by decide
    have h3 : newline ∉ text " .price=" := by decide
    have h4 : newline ∉ text " .order_id=" := by decide
    unfold LogMessage.text.order
    simp only [List.mem_append, not_or]
    exact ⟨⟨⟨⟨⟨⟨⟨⟨hwhat, h1⟩, hdecimal i⟩, h2⟩, hdecimal q⟩, h3⟩, hdecimal p⟩, h4⟩, hdecimal id⟩
  intro e he
  cases p with
  | deposited =>
    rw [List.mem_singleton.1 he]
    exact hitem (by decide) _ _
  | withdrawn =>
    rw [List.mem_singleton.1 he]
    exact hitem (by decide) _ _
  | fee =>
    rw [List.mem_singleton.1 he]
    exact hitem (by decide) _ _
  | traded =>
    rcases List.mem_cons.1 he with rfl | he
    · exact horder (by decide) _ _ _ _
    · rw [List.mem_singleton.1 he]
      exact horder (by decide) _ _ _ _

/-! ## Reading a file -/

/-- Entries with the times at which they were written to the file. -/
structure Logged (s : SharedState) (l : List (Bytes × LogEntry)) : Prop where
  entries : l.map Prod.snd = s.transactionLog
  timestamp : ∀ x ∈ l, Timestamp x.1

section
variable {s : SharedState} {l : List (Bytes × LogEntry)} (h : Logged s l)
include h

theorem Logged.lines {postings : List Posting} (hp : s.Posted postings) :
    ∀ line ∈ l.map LogEntry.body, newline ∉ line := by
  intro line hline
  obtain ⟨x, hx, rfl⟩ := List.mem_map.1 hline
  refine LogEntry.newline_not_mem_body (h.timestamp x hx) ?_
  have hm : x.2 ∈ postings.flatMap Posting.entries := by
    rw [← hp.1, ← h.entries]
    exact List.mem_map_of_mem hx
  obtain ⟨p, -, he⟩ := List.mem_flatMap.1 hm
  exact p.oneLine x.2 he

/-- What is left of the file is read back line by line, up to its last line end. -/
theorem Logged.read {postings : List Posting} (hp : s.Posted postings) {part : Bytes}
    (hpart : part <+: TransactionLog.file l) :
    (splitLines newline part).1 = (l.take (splitLines newline part).1.length).map LogEntry.body := by
  rw [TransactionLog.file_eq] at hpart
  rw [List.map_take]
  exact List.prefix_iff_eq_take.1 (splitLines_cut (h.lines hp) hpart)

end

namespace Output

/-- Two runs, and the files with their logs: as far as lines of the one file are left in the other, the
entries are the same, and from the same file whoever replays it finds the same funds. -/
theorem log_file_unambiguous (events events' : List OutputEvent) {s s' : Output}
    (h : Machine.run step (started Storage.initial Database.initial) events = some s)
    (h' : Machine.run step (started Storage.initial Database.initial) events' = some s')
    {l l' : List (Bytes × LogEntry)} (hl : Logged s.state l) (hl' : Logged s'.state l') :
    (∀ part, part <+: TransactionLog.file l → part <+: TransactionLog.file l' →
      let n := (splitLines newline part).1.length
      (splitLines newline part).1 = (l.take n).map LogEntry.body ∧ l.take n = l'.take n) ∧
    (TransactionLog.file l = TransactionLog.file l' → l = l' ∧ ∀ u : UserId,
      let f := Storage.initial.fundsItemId.toInt
      s.state.db.balance u.toInt f + s.state.db.bids u.toInt =
        s'.state.db.balance u.toInt f + s'.state.db.bids u.toInt) := by
  obtain ⟨postings, hp⟩ := run_posted h
  obtain ⟨postings', hp'⟩ := run_posted h'
  refine ⟨fun part hpart hpart' => ?_, fun hfile => ?_⟩
  · intro n
    have hread := hl.read hp hpart
    refine ⟨hread, ?_⟩
    exact LogEntry.bodies_inj (fun x hx => hl.timestamp x (List.mem_of_mem_take hx))
      (fun x hx => hl'.timestamp x (List.mem_of_mem_take hx)) (hread.symm.trans (hl'.read hp' hpart'))
  · have hsplit : ∀ {state : SharedState} {l : List (Bytes × LogEntry)} {postings : List Posting}, Logged state l →
        state.Posted postings → splitLines newline (TransactionLog.file l) = (l.map LogEntry.body, []) := by
      intro state l postings hl hp
      have := splitLines_unlines (hl.lines hp) List.not_mem_nil
      rw [List.append_nil] at this
      rw [TransactionLog.file_eq, this]
    have hlines := hsplit hl hp
    rw [hfile, hsplit hl' hp'] at hlines
    have heq : l = l' := LogEntry.bodies_inj hl.timestamp hl'.timestamp (Prod.mk.inj hlines).1.symm
    refine ⟨heq, fun u => ?_⟩
    have hfunds := (run_balanced h).1 u
    have hfunds' := (run_balanced h').1 u
    rw [(run_invariant h).1] at hfunds
    rw [(run_invariant h').1] at hfunds'
    have hlog : s.state.transactionLog = s'.state.transactionLog := by rw [← hl.entries, ← hl'.entries, heq]
    rw [← hlog] at hfunds'
    exact hfunds.trans hfunds'.symm

/-- alice deposits five more; what the two files share says that she had deposited ten. -/
theorem log_file_unambiguous_deposit :
    let entry (quantity : Int32) : LogEntry := ⟨1, .item (text "deposited") 1 quantity⟩
    let l := [(text "0.5", entry 10)]
    let l' := l ++ [(text "1.5", entry 5)]
    ∃ s s', Machine.run step (started Storage.initial Database.initial) depositRun = some s ∧
      Machine.run step (started Storage.initial Database.initial)
        (depositRun ++ [.request 0 1 (text "deposit funds 5")]) = some s' ∧
      TransactionLog.file l = text "0.5: user\x7b.id=1\x7d deposited .item_id=1 .quantity=10\n" ∧
      TransactionLog.file l <+: TransactionLog.file l' ∧
      (splitLines newline (TransactionLog.file l)).1 = (l.take 1).map LogEntry.body ∧ l.take 1 = l'.take 1 := by
  intro entry l l'
  have hrun : (Machine.run step (started Storage.initial Database.initial) depositRun).map
      (fun s => s.state.transactionLog) = some (l.map Prod.snd) := by decide +kernel
  have hrun' : (Machine.run step (started Storage.initial Database.initial)
      (depositRun ++ [.request 0 1 (text "deposit funds 5")])).map (fun s => s.state.transactionLog) =
        some (l'.map Prod.snd) := by decide +kernel
  obtain ⟨s, hs, hlog⟩ := Option.map_eq_some_iff.1 hrun
  obtain ⟨s', hs', hlog'⟩ := Option.map_eq_some_iff.1 hrun'
  have hstamps : ∀ x ∈ l', Timestamp x.1 := by
    intro x hx
    rcases List.mem_cons.1 hx with rfl | hx
    · exact ⟨by decide, by decide⟩
    · rw [List.mem_singleton.1 hx]
      exact ⟨by decide, by decide⟩
  have hl : Logged s.state l := ⟨hlog.symm, fun x hx => hstamps x (List.mem_append_left _ hx)⟩
  have hl' : Logged s'.state l' := ⟨hlog'.symm, hstamps⟩
  have hprefix : TransactionLog.file l <+: TransactionLog.file l' := by
    unfold TransactionLog.file
    rw [List.flatMap_append]
    exact List.prefix_append _ _
  have hread := (log_file_unambiguous _ _ hs hs' hl hl').1 _ List.prefix_rfl hprefix
  have hlines : (splitLines newline (TransactionLog.file l)).1.length = 1 := by decide +kernel
  dsimp only at hread
  rw [hlines] at hread
  exact ⟨s, s', hs, hs', by decide +kernel, hprefix, hread⟩

end Output

end AuctionHouse
