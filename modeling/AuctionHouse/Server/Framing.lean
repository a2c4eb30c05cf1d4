/-
How the commands of a client reach the server. The client writes each line without its end and the
server takes whatever one read returns for one request, so what is executed depends on where TCP
cuts the stream.
-/
import AuctionHouse.Server.Processor
import AuctionHouse.Store.Listing
import AuctionHouse.Store.Traces
import AuctionHouse.Text.Segments

namespace AuctionHouse

/-! ## The client -/

/-- The bytes that the loop of `spawn_cli_handler` writes for the lines it reads. -/
def spawnCliHandler : List Bytes → Bytes
  | [] => []
  | cmd :: cmds => cmd ++ spawnCliHandler cmds

theorem spawnCliHandler_eq : ∀ lines : List Bytes, spawnCliHandler lines = lines.flatten
  | [] => rfl
  | line :: lines => by rw [spawnCliHandler, spawnCliHandler_eq lines, List.flatten_cons]

/-! ## The server -/

/-- What `async_read_some` returns, with the server and the time at which it returns. Other clients
and the settlement may have changed the server since the read before. -/
structure Read where
  bytes : Bytes
  state : SharedState
  unixNow : ℤ

/-- The requests that the loop of `process_user_commands` passes to `process_request`. -/
def processUserCommands (user : User) : List Read → List Bytes
  | [] => []
  | r :: reads => r.bytes :: match (processRequest user r.unixNow r.bytes r.state).1 with
    | .reply _ => processUserCommands user reads
    -- the exception of `Quit` leaves the loop
    | .quit | .undefined => []

/-- The requests of a connection: `process_client_login` passes its first one to `login`. -/
def processClientLogin : List Read → List Bytes
  | [] => []
  | r :: reads => r.bytes :: match (SharedState.onStorage (fun st => UserService.login st r.bytes) [] r.state).1 with
    | .ok user => processUserCommands user reads
    | .error _ => []

/-- A stream as it reaches the server: each read returns from 1 to 256 bytes of it. -/
structure Delivery (stream : Bytes) where
  reads : List Read
  segments : Text.Segments 256 stream (reads.map Read.bytes)

/-! ## Sessions that go on -/

namespace Read

/-- The name is there, or new and its user can be created. -/
def LogsIn (r : Read) : Prop :=
  r.bytes ≠ [] ∧ ((∃ u ∈ r.state.db.users, some u.username = (r.bytes : StringView)) ∨
    NewUser r.state.db.toTables r.bytes ∧ r.state.db.HasItem r.state.storage.fundsItemId.toInt)

/-- The request is `quit`, or a listing with an order that expires at no date of SQLite. -/
def Ends (r : Read) : Prop :=
  (parseCommandName r.bytes).1 = text "quit" ∨ (parseCommandName r.bytes).1 = text "view_sell_orders" ∧
    ∃ o ∈ r.state.db.sellOrders, datetime o.expirationTime = none

theorem logsIn_iff (r : Read) :
    (∃ user, (SharedState.onStorage (fun st => UserService.login st r.bytes) [] r.state).1 = .ok user) ↔ r.LogsIn := by
  exact login_succeeds

theorem ends_iff (user : User) (r : Read) :
    (∃ response, (processRequest user r.unixNow r.bytes r.state).1 = .reply response) ↔ ¬ r.Ends := by
  have hundefined : AnyCommand.executeViewSellOrders r.state = (.undefined, r.state) ↔
      ∃ o ∈ r.state.db.sellOrders, datetime o.expirationTime = none := by
    rw [← listing_undefined_iff]
    unfold AnyCommand.executeViewSellOrders
    rw [state_bind, onStorage_query Storage.viewSellOrders fun _ hc => (query_after _ hc).1]
    simp only
    rcases Sql.outcome (Storage.viewSellOrders (Sql.Connection.idle r.state.db)) with e | _ | orders
    · exact iff_of_false (fun h => nomatch h) fun h => nomatch h
    · exact iff_of_true rfl rfl
    · exact iff_of_false (fun h => nomatch h) fun h => nomatch h
  rw [processRequest_reply, ne_eq, ne_eq, hundefined, Ends, not_or, not_and]

end Read

/-- The name is accepted, and then no request but the last one ends the session. -/
def GoesOn : List Read → Prop
  | [] => True
  | r :: reads => reads ≠ [] → r.LogsIn ∧ ∀ r ∈ reads.dropLast, ¬ r.Ends

theorem processUserCommands_first (user : User) : ∀ reads, processUserCommands user reads <+: reads.map Read.bytes
  | [] => List.prefix_rfl
  | r :: reads => by
    rw [processUserCommands, List.map_cons, List.prefix_cons_inj]
    split
    · exact processUserCommands_first user reads
    · exact List.nil_prefix
    · exact List.nil_prefix

theorem processUserCommands_all (user : User) : ∀ reads,
    processUserCommands user reads = reads.map Read.bytes ↔ ∀ r ∈ reads.dropLast, ¬ r.Ends
  | [] => iff_of_true rfl fun _ h => nomatch h
  | [r] => by
    refine iff_of_true ?_ fun _ h => nomatch h
    rw [processUserCommands, processUserCommands]
    split <;> rfl
  | r :: r' :: reads => by
    have ih := processUserCommands_all user (r' :: reads)
    rw [List.dropLast_cons_cons, List.forall_mem_cons, ← ih, ← r.ends_iff user, processUserCommands, List.map_cons,
      List.cons.injEq, and_iff_right rfl]
    rcases (processRequest user r.unixNow r.bytes r.state).1 with response | _ | _
    · exact (and_iff_right ⟨response, rfl⟩).symm
    · exact iff_of_false (by simp) fun h => nomatch h.1
    · exact iff_of_false (by simp) fun h => nomatch h.1

theorem processClientLogin_first : ∀ reads, processClientLogin reads <+: reads.map Read.bytes
  | [] => List.prefix_rfl
  | r :: reads => by
    rw [processClientLogin, List.map_cons, List.prefix_cons_inj]
    split
    · exact processUserCommands_first _ reads
    · exact List.nil_prefix

/-- Every read is passed on as a request exactly when the session goes on until the last. -/
theorem processClientLogin_all : ∀ reads, processClientLogin reads = reads.map Read.bytes ↔ GoesOn reads
  | [] => iff_of_true rfl trivial
  | [r] => by
    refine iff_of_true ?_ fun h => (h rfl).elim
    rw [processClientLogin]
    split <;> rfl
  | r :: r' :: reads => by
    rw [GoesOn, forall_prop_of_true (List.cons_ne_nil r' reads), ← r.logsIn_iff, processClientLogin, List.map_cons,
      List.cons.injEq, and_iff_right rfl]
    rcases (SharedState.onStorage (fun st => UserService.login st r.bytes) [] r.state).1 with e | user
    · exact iff_of_false (by simp) fun h => nomatch h.1
    · rw [and_iff_right ⟨user, rfl⟩]
      exact processUserCommands_all user (r' :: reads)

/-! ## Lines and requests -/

section
variable {lines : List Bytes} (d : Delivery (spawnCliHandler lines))

theorem Delivery.segments_lines : Text.Segments 256 lines.flatten (d.reads.map Read.bytes) := by
  rw [← spawnCliHandler_eq]
  exact d.segments

/-- Requests that are the lines are all the reads. -/
theorem Delivery.reads_eq (h : processClientLogin d.reads = lines) : d.reads.map Read.bytes = lines := by
  rw [← d.segments_lines.eq_of_prefix (processClientLogin_first d.reads) (congrArg List.flatten h), h]

/-- The requests of a session are the lines of its client exactly when every read returned as many
bytes as its line has, and the session goes on until the last line. -/
theorem requests_framed_iff : processClientLogin d.reads = lines ↔
    d.reads.map (·.bytes.length) = lines.map List.length ∧ GoesOn d.reads := by
  rw [← processClientLogin_all]
  have hlengths := d.segments_lines.eq_iff
  rw [List.map_map] at hlengths
  constructor
  · intro h
    have hreads := d.reads_eq h
    exact ⟨hlengths.1 hreads, h.trans hreads.symm⟩
  · rintro ⟨h, hall⟩
    exact hall.trans (hlengths.2 h)

end

/-- alice's deposit of 100 funds is cut after its first digit, and she deposits 1; or it arrives with
her name, and logs in somebody else. -/
theorem deposit_misframed :
    let lines := [text "alice", text "deposit funds 100"]
    let s₀ := SharedState.initial
    let s₁ := (SharedState.onStorage (fun st => UserService.login st (text "alice")) [] s₀).2
    let s₂ := (processRequest ⟨1, text "alice"⟩ 0 (text "deposit funds 1") s₁).2
    (∃ d : Delivery (spawnCliHandler lines), d.reads = [⟨text "alice", s₀, 0⟩, ⟨text "deposit funds 1", s₁, 0⟩,
        ⟨text "00", s₂, 0⟩] ∧
      processClientLogin d.reads = [text "alice", text "deposit funds 1", text "00"] ∧
      processClientLogin d.reads ≠ lines ∧ s₂.db.inventory (1, 1) = some 1) ∧
    ∃ d : Delivery (spawnCliHandler lines), d.reads = [⟨text "alicedeposit funds 100", s₀, 0⟩] ∧
      processClientLogin d.reads = [text "alicedeposit funds 100"] ∧ processClientLogin d.reads ≠ lines := by
  intro lines s₀ s₁ s₂
  have hsplit : processClientLogin [⟨text "alice", s₀, 0⟩, ⟨text "deposit funds 1", s₁, 0⟩, ⟨text "00", s₂, 0⟩] =
      [text "alice", text "deposit funds 1", text "00"] := by decide +kernel
  have hmerged : processClientLogin [⟨text "alicedeposit funds 100", s₀, 0⟩] = [text "alicedeposit funds 100"] := by
    decide +kernel
  refine ⟨⟨⟨_, ⟨by decide +kernel, by decide +kernel⟩⟩, rfl, hsplit, ?_, by decide +kernel⟩,
    ⟨⟨_, ⟨by decide +kernel, by decide +kernel⟩⟩, rfl, hmerged, ?_⟩⟩
  · rw [hsplit]
    decide +kernel
  · rw [hmerged]
    decide +kernel

/-- However the stream is cut, the lines come through only if there are none, or one of one byte. -/
theorem requests_always_framed_iff (lines : List Bytes) :
    (∀ d : Delivery (spawnCliHandler lines), processClientLogin d.reads = lines) ↔ lines = [] ∨ ∃ b, lines = [[b]] := by
  have hunique : (∀ chunks, Text.Segments 256 (spawnCliHandler lines) chunks → chunks = lines) ↔
      lines = [] ∨ ∃ b, lines = [[b]] := by
    rw [spawnCliHandler_eq]
    exact Text.segments_unique_iff (by decide)
  rw [← hunique]
  constructor
  · intro h chunks hc
    let reads := chunks.map fun bytes => (⟨bytes, SharedState.initial, 0⟩ : Read)
    have hreads : reads.map Read.bytes = chunks := by
      rw [List.map_map]
      exact List.map_id _
    let d : Delivery (spawnCliHandler lines) := ⟨reads, by rw [hreads]; exact hc⟩
    rw [← hreads]
    exact d.reads_eq (h d)
  · rintro h ⟨reads, hs⟩
    have hreads := h _ hs
    refine ((processClientLogin_all reads).2 ?_).trans hreads
    rcases hunique.1 h with hl | ⟨b, hl⟩
    · rw [hl] at hreads
      rw [List.map_eq_nil_iff.1 hreads]
      trivial
    · rw [hl] at hreads
      obtain ⟨r, rfl, -⟩ := List.map_eq_singleton_iff.1 hreads
      exact fun hne => (hne rfl).elim

end AuctionHouse
