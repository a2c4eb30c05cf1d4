/-
The layers of the server: the streams of bytes, the connections, the shared state of the coroutines,
and the auction house that it all is for. Each is simulated by the next one, so that whatever comes
in on the sockets, in whatever pieces and order, the tables and the transaction log are those of a
house that made allowed deals only.
-/
import AuctionHouse.Machine.Simulation
import AuctionHouse.Market.House
import AuctionHouse.Server.Output
import AuctionHouse.Store.Ledger

namespace AuctionHouse

/-! ## The shared state as a house -/

namespace SharedState

/-- The tables and the log of the server are those of the house. -/
structure Books (st : Storage) (s : SharedState) (h : House ℤ ℤ) : Prop where
  storage : s.storage = st
  invariant : Invariant st s.db.toTables
  market : s.db.market = h.market
  log : ∀ i amount, Measures st.fundsItemId i amount → ∀ u : UserId,
    s.transactionLog.replay amount u = h.onRecord u.toInt i.toInt

/-- The log grows by what is recorded of the deal. -/
theorem Booked.replay {s s' : SharedState} {e : Event} {d : Deal ℤ ℤ} (h : Booked s s' e d)
    (hi : Invariant s.storage s.db.toTables) {i : Int32} {amount : LogMessage → ℤ}
    (hm : Measures s.storage.fundsItemId i amount) (u : UserId) : s'.transactionLog.replay amount u =
      s.transactionLog.replay amount u + s.db.market.recorded s.storage.fundsItemId.toInt d u.toInt i.toInt := by
  have h1 := h.estate i amount hm u
  have h2 := Market.estate_apply (market_wf s.db.valid hi) h.dealt.allowed u.toInt i.toInt
  rw [← h.dealt.market] at h2
  omega

/-- Every event is a deal of the house. -/
theorem books_simulation (st : Storage) :
    Machine.Simulation next (House.step st.fundsItemId.toInt) (Books st) := by
  refine .of_step ?_
  intro s s' h e hb hs
  obtain rfl := hb.storage
  obtain ⟨d, hd⟩ := booked_of_next hb.invariant hs
  refine ⟨d, h.make s.storage.fundsItemId.toInt d, House.step_some.2 ⟨hb.market ▸ hd.dealt.allowed, rfl⟩, hd.storage,
    hd.dealt.invariant, ?_, fun i amount hm u => ?_⟩
  · rw [hd.dealt.market, hb.market]
    rfl
  · rw [hd.replay hb.invariant hm u, hb.log i amount hm u, hb.market]
    rfl

/-! ## Connections over the shared state -/

theorem next_db {s s' : SharedState} {e : Event} (h : s.next e = some s') :
    s'.db = Call.next s.storage ⟨e.operation, []⟩ s.db := by
  obtain ⟨_, -, rfl⟩ | ⟨_, -, -, rfl⟩ := next_cases h
  · rfl
  · rfl

/-- The same storage, database and log. -/
structure SameBooks (s t : SharedState) : Prop where
  storage : s.storage = t.storage
  db : s.db = t.db
  log : s.transactionLog = t.transactionLog

/-- Sockets and notifications decide nothing about the books. -/
theorem SameBooks.next {s s' t : SharedState} {e : Event} (h : SameBooks s t) (hs : s.next e = some s') :
    ∃ t', t.next e = some t' ∧ SameBooks s' t' := by
  have hstep := step_eq t e
  obtain ⟨reply, hr, rfl⟩ | ⟨error, hr, hne, rfl⟩ := next_cases hs
  all_goals rw [h.storage, h.db] at hr
  all_goals rw [hr] at hstep
  · refine ⟨_, congrArg Behaviour.state hstep, h.storage, ?_, ?_⟩
    · simp only [record, h.storage, h.db]
    · simp only [record, h.log]
  · refine ⟨{ t with db := Call.next t.storage ⟨e.operation, []⟩ t.db }, ?_, h.storage, ?_, h.log⟩
    · cases e with
      | tick unixNow => exact absurd rfl (hne unixNow)
      | login username => exact congrArg Behaviour.state hstep
      | command userId unixNow command => exact congrArg Behaviour.state hstep
    · simp only [h.storage, h.db]

end SharedState

namespace Server

open SharedState (SameBooks)

variable {s s' : Server} {e : ServerEvent}

/-- What a step does to the shared state: an event of it, or one notification is taken, or only its
sockets change. -/
inductive Moves (s s' : Server) : ServerEvent → Prop
  | login {socket : Socket} {username : StringView} (h : s.state.next (.login username) = some s'.state)
    (hn : s'.notified = s.notified) : Moves s s' (.login socket username)
  | request {socket : Socket} {unixNow : ℤ} {command : Command} {user : User}
    (hu : s.connections socket = some (.commands user))
    (h : s.state.next (.command user.id unixNow command) = some s'.state) (hn : s'.notified = s.notified) :
    Moves s s' (.request socket unixNow command)
  | tick {unixNow : ℤ} (h : s.state.next (.tick unixNow) = some s'.state) (hn : s'.notified = s.notified) :
    Moves s s' (.tick unixNow)
  | notify {userId : UserId} {notification : ExecutedSellOrder}
    (hq : s.state.notifications = (userId, notification) :: s'.state.notifications) (hb : SameBooks s'.state s.state)
    (hn : s'.notified = s.notified ++ ((s.state.sockets userId).map fun socket => (socket, notification)).toList) :
    Moves s s' .notify
  | quiet {e : ServerEvent} (hne : e ≠ .notify) (hq : s'.state.notifications = s.state.notifications)
    (hb : SameBooks s'.state s.state) (hn : s'.notified = s.notified) : Moves s s' e

theorem step_moves (h : s.step e = some s') : Moves s s' e := by
  cases e with
  | login socket username =>
    simp only [step] at h
    split at h
    · cases h
      have hnext : s.state.next (.login username) =
          some (SharedState.onStorage (fun st => UserService.login st username) [] s.state).2 := rfl
      unfold processClientLogin
      split
      · rename_i user state hr
        rw [hr] at hnext
        exact .login hnext rfl
      · rename_i error state hr
        rw [hr] at hnext
        exact .login hnext rfl
    · cases h
  | request socket unixNow command =>
    simp only [step] at h
    split at h
    · rename_i user hu
      obtain ⟨state, hnext, rfl⟩ := Option.map_eq_some_iff.1 h
      exact .request hu hnext rfl
    · cases h
  | tick unixNow =>
    obtain ⟨state, hnext, rfl⟩ := Option.map_eq_some_iff.1 h
    exact .tick hnext rfl
  | notify =>
    simp only [step, notifyUsers] at h
    split at h
    · cases h
    · rename_i userId notification rest hqueue
      split at h
      · rename_i socket hsocket
        cases h
        exact .notify hqueue ⟨rfl, rfl, rfl⟩ (by rw [hsocket]; rfl)
      · rename_i hsocket
        cases h
        exact .notify hqueue ⟨rfl, rfl, rfl⟩ (by rw [hsocket]; exact (List.append_nil _).symm)
  | accept =>
    cases h
    exact .quiet (by rintro ⟨⟩) rfl ⟨rfl, rfl, rfl⟩ rfl
  | abandon socket =>
    simp only [step] at h
    split at h
    · cases h; exact .quiet (by rintro ⟨⟩) rfl ⟨rfl, rfl, rfl⟩ rfl
    · cases h; exact .quiet (by rintro ⟨⟩) rfl ⟨rfl, rfl, rfl⟩ rfl
    · cases h
  | enter socket =>
    simp only [step] at h
    split at h
    · cases h; exact .quiet (by rintro ⟨⟩) rfl ⟨rfl, rfl, rfl⟩ rfl
    · cases h
  | leave socket =>
    simp only [step] at h
    split at h
    · cases h; exact .quiet (by rintro ⟨⟩) rfl ⟨rfl, rfl, rfl⟩ rfl
    · cases h

end Server

namespace SharedState

theorem SameBooks.trans {s t u : SharedState} (h : SameBooks s t) (h' : SameBooks t u) : SameBooks s u :=
  ⟨h.storage.trans h'.storage, h.db.trans h'.db, h.log.trans h'.log⟩

theorem sameBooks_simulation :
    Machine.Simulation Server.step next fun server s => SameBooks server.state s where
  forward := by
    intro s s' t e hr hs
    have hnext : ∀ {event : Event}, s.state.next event = some s'.state →
        ∃ events t', Machine.run next t events = some t' ∧ SameBooks s'.state t' := by
      intro event he
      obtain ⟨t', ht, hb⟩ := hr.next he
      exact ⟨[event], t', by rw [Machine.run_cons, ht]; rfl, hb⟩
    cases Server.step_moves hs with
    | login h => exact hnext h
    | request _ h => exact hnext h
    | tick h => exact hnext h
    | notify _ hb => exact ⟨[], t, rfl, hb.trans hr⟩
    | quiet _ _ hb => exact ⟨[], t, rfl, hb.trans hr⟩

end SharedState

/-! ## Streams over connections -/

namespace Output

variable {s s' : Output} {e : OutputEvent}

theorem server_simulation : Machine.Simulation step Server.step fun s server => s.toServer = server where
  forward := by
    rintro s s' _ e rfl h
    obtain ⟨events, hrun⟩ := step_server h
    exact ⟨events, _, hrun, rfl⟩

end Output

/-! ## All layers -/

namespace House

/-- A house that has not opened yet. -/
def empty : House ℤ ℤ where
  market := ⟨fun _ _ => 0, [], 0⟩

theorem sound_empty (funds : ℤ) : empty.Sound funds := by
  refine ⟨⟨List.nodup_nil, ?_, ?_, ?_, ?_, ?_, fun _ _ => le_rfl⟩, fun _ _ => rfl, fun _ => rfl, fun _ _ => le_rfl⟩
  all_goals intro o ho; cases ho

end House

namespace SharedState

theorem books_initial : Books Storage.initial initial House.empty := by
  refine ⟨rfl, initial_invariant, ?_, fun _ _ _ _ => rfl⟩
  unfold Tables.market House.empty
  congr 1

/-- Whoever replays the log of a sound house finds everyone's funds, and no more items than it says. -/
theorem Books.balanced {st : Storage} {s : SharedState} {h : House ℤ ℤ} (hb : Books st s h)
    (hs : h.Sound st.fundsItemId.toInt) : s.FundsBalanced ∧ ∀ u i : Int32, i ≠ st.fundsItemId →
      s.db.balance u.toInt i.toInt + s.db.onSale u.toInt i.toInt ≤ s.transactionLog.replay (LogMessage.items i) u := by
  constructor
  · intro u
    have h1 := hs.balanced u.toInt st.fundsItemId.toInt
    have h2 := hb.log _ _ (measures_funds _) u
    rw [hs.kept, ← hb.market, Tables.estate_funds hb.invariant] at h1
    rw [hb.storage]
    omega
  · intro u i hne
    have hne' : i.toInt ≠ st.fundsItemId.toInt := fun he => hne (Int32.toInt_inj.1 he)
    have h1 := hs.balanced u.toInt i.toInt
    have h2 := hb.log _ _ (measures_items hne) u
    have h3 := hs.destroyed u.toInt i.toInt
    rw [← hb.market, Tables.estate_item hne'] at h1
    omega

end SharedState

namespace Output

/-- Every run is a run of the house. -/
theorem run_deals {events : List OutputEvent} {s : Output}
    (h : Machine.run step (started Storage.initial Database.initial) events = some s) :
    ∃ deals house, Machine.run (House.step Storage.initial.fundsItemId.toInt) House.empty deals = some house ∧
      SharedState.Books Storage.initial s.state house := by
  have hsim := server_simulation.comp
    (SharedState.sameBooks_simulation.comp (SharedState.books_simulation Storage.initial))
  obtain ⟨deals, house, hrun, _, rfl, t, hsame, hbooks⟩ := hsim.run_forward
    ⟨_, rfl, SharedState.initial, ⟨rfl, rfl, rfl⟩, SharedState.books_initial⟩ h
  refine ⟨deals, house, hrun, hsame.storage.trans hbooks.storage, ?_, ?_, fun i amount hm u => ?_⟩
  · rw [hsame.db]
    exact hbooks.invariant
  · rw [hsame.db]
    exact hbooks.market
  · rw [hsame.log]
    exact hbooks.log i amount hm u

/-- No user holds more than the log says. -/
def Balanced (s : Output) : Prop := s.state.FundsBalanced ∧ ∀ u i : Int32, i ≠ Storage.initial.fundsItemId →
  s.state.db.balance u.toInt i.toInt + s.state.db.onSale u.toInt i.toInt ≤
    s.state.transactionLog.replay (LogMessage.items i) u

theorem run_balanced {events : List OutputEvent} {s : Output}
    (h : Machine.run step (started Storage.initial Database.initial) events = some s) : s.Balanced := by
  obtain ⟨deals, house, hrun, hbooks⟩ := run_deals h
  exact hbooks.balanced (House.sound_run (House.sound_empty _) hrun)

theorem run_invariant {events : List OutputEvent} {s : Output}
    (h : Machine.run step (started Storage.initial Database.initial) events = some s) :
    s.state.storage = Storage.initial ∧ Invariant Storage.initial s.state.db.toTables := by
  obtain ⟨_, _, -, hbooks⟩ := run_deals h
  exact ⟨hbooks.storage, hbooks.invariant⟩

/-- Whatever comes in on the sockets and however the writes go, the tables are the market of a house
that made allowed deals only, the log is its record, and it holds no more for anyone than the log says. -/
theorem run_house (events : List OutputEvent) {s : Output}
    (h : Machine.run step (started Storage.initial Database.initial) events = some s) :
    (∃ deals house, Machine.run (House.step Storage.initial.fundsItemId.toInt) House.empty deals = some house ∧
      SharedState.Books Storage.initial s.state house) ∧ s.Balanced := ⟨run_deals h, run_balanced h⟩

/-- alice logs in and deposits ten funds. -/
def depositRun : List OutputEvent :=
  [.accept, .write 0 256, .login 0 (text "alice"), .write 0 256, .enter 0, .request 0 0 (text "deposit funds 10"),
    .write 0 256]

/-- bob bids for alice's sword, and gets it when it expires. -/
def bidRun : List OutputEvent :=
  [.accept, .write 0 256, .accept, .write 1 256, .login 0 (text "alice"), .write 0 256, .login 1 (text "bob"),
    .write 1 256, .enter 0, .enter 1, .request 0 0 (text "deposit funds 10"), .write 0 256,
    .request 0 0 (text "deposit sword"), .write 0 256, .request 0 0 (text "sell auction sword 20"), .write 0 256,
    .request 1 0 (text "deposit funds 30"), .write 1 256, .request 1 100 (text "buy 1 25"), .tick 299, .tick 300]

/-- He puts it up again, and alice bids. -/
def resaleRun : List OutputEvent := bidRun ++
  [.write 1 256, .request 1 300 (text "sell auction sword 10"), .request 0 300 (text "buy 2 12")]

theorem run_house_resale : ∃ s, Machine.run step (started Storage.initial Database.initial) resaleRun = some s ∧
    (s.state.db.balance 1 1, s.state.db.balance 2 1) = (21, 4) ∧ s.state.db.sellOrders.map (·.buyerId) = [some 1] ∧
    (∃ deals house, Machine.run (House.step Storage.initial.fundsItemId.toInt) House.empty deals = some house ∧
      SharedState.Books Storage.initial s.state house) ∧ s.Balanced := by
  have hrun : (Machine.run step (started Storage.initial Database.initial) resaleRun).map (fun s =>
      ((s.state.db.balance 1 1, s.state.db.balance 2 1), s.state.db.sellOrders.map (·.buyerId))) =
        some ((21, 4), [some 1]) := by decide +kernel
  obtain ⟨s, hs, h⟩ := Option.map_eq_some_iff.1 hrun
  obtain ⟨hbalances, horders⟩ := Prod.mk.inj h
  exact ⟨s, hs, hbalances, horders, run_house resaleRun hs⟩

end Output

end AuctionHouse
