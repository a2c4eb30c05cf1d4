/-
An auction house: a market, what the house has on record of everyone, and what was destroyed. It
makes the deals that are allowed, one after another, and what everyone has is what is on record,
less what was destroyed.
-/
import AuctionHouse.Machine.Runs
import AuctionHouse.Market.Estate

namespace AuctionHouse

structure House (U I : Type) where
  market : Market U I
  onRecord : U → I → ℤ := fun _ _ => 0
  destroyed : U → I → ℤ := fun _ _ => 0

namespace House

variable {U I : Type} [DecidableEq U] [DecidableEq I] (funds : I)

/-- The house after a deal. -/
def make (h : House U I) (d : Deal U I) : House U I where
  market := h.market.apply funds d
  onRecord v j := h.onRecord v j + h.market.recorded funds d v j
  destroyed v j := h.destroyed v j + d.loss v j

open Classical in
/-- None when the deal is not allowed. -/
noncomputable def step (h : House U I) (d : Deal U I) : Option (House U I) :=
  if h.market.Allowed funds d then some (h.make funds d) else none

/-- A well-formed market in which everyone has what is on record. -/
structure Sound (h : House U I) : Prop where
  market : h.market.WF funds
  balanced : ∀ v j, h.market.estate funds v j + h.destroyed v j = h.onRecord v j
  kept : ∀ v, h.destroyed v funds = 0
  destroyed : ∀ v j, 0 ≤ h.destroyed v j

variable {funds} {h h' : House U I} {d : Deal U I}

theorem step_some : h.step funds d = some h' ↔ h.market.Allowed funds d ∧ h' = h.make funds d := by
  unfold step
  split
  · rename_i ha
    constructor
    · intro he
      exact ⟨ha, (Option.some.inj he).symm⟩
    · rintro ⟨-, rfl⟩
      rfl
  · rename_i ha
    constructor
    · rintro ⟨⟩
    · rintro ⟨ha', -⟩
      exact absurd ha' ha

theorem loss_nonneg {m : Market U I} (ha : m.Allowed funds d) (v : U) (j : I) : 0 ≤ d.loss v j := by
  cases d with
  | withdraw u i q spoiled => exact give_nonneg ha.2.1 ..
  | place o fee spoiled => exact give_nonneg ha.2.2.2.2.2.2.1 ..
  | _ => exact le_rfl

theorem sound_step (hs : h.Sound funds) (he : h.step funds d = some h') : h'.Sound funds := by
  obtain ⟨ha, rfl⟩ := step_some.1 he
  refine ⟨Market.wf_apply hs.market ha, fun v j => ?_, fun v => ?_, fun v j => ?_⟩
  · have h1 := hs.balanced v j
    have h2 := Market.estate_apply hs.market ha v j
    simp only [make]
    omega
  · simp only [make, hs.kept, Market.loss_funds ha, Int.add_zero]
  · exact Int.add_nonneg (hs.destroyed v j) (loss_nonneg ha v j)

theorem sound_run {deals : List (Deal U I)} (hs : h.Sound funds) (he : Machine.run (step funds) h deals = some h') :
    h'.Sound funds := Machine.run_keeps (fun _ _ _ hs he => sound_step hs he) hs he

end House

end AuctionHouse
