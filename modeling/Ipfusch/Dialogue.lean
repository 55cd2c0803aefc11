import Ipfusch.Machine
import Mathlib.Logic.Function.Basic
import Mathlib.Order.MinMax

/-!
# Dialogues

Two sides that are connected by a stream in each direction. A side is a function from what it has
received to all it has to say, and is causal : what comes later does not change what it has said.
What it has to say is sent in pieces of any size at any time, and what is sent is received in pieces
of any size at any later time.

`Script side said` : `said` is all that the two say to each other. In every run each of them has
sent a prefix of it (`sound_reach`), each step that moves something brings the run closer to its end
(`exec_left`), and until all is said and received such a step is possible, within any positive
capacities of the streams (`exists_moves`). So the order and the pieces do not matter.
-/

namespace Dialogue

variable {α : Type*}

/-- What comes later does not change what was said. -/
def Causal (f : List α → List α) : Prop :=
  ∀ {xs ys}, xs <+: ys → f xs <+: f ys

/-- Where a dialogue is. -/
structure State (α : Type*) where
  /-- What each side has sent. -/
  sent : Bool → List α
  /-- How much of it the other side has received. -/
  got : Bool → ℕ

/-- What a side has received. -/
def State.input (s : State α) (b : Bool) : List α :=
  (s.sent !b).take (s.got !b)

/-- What can come next. -/
inductive Action
  /-- A side sends the next `n` elements. -/
  | send (b : Bool) (n : ℕ)
  /-- The next `n` elements that a side has sent are received. -/
  | deliver (b : Bool) (n : ℕ)
  deriving DecidableEq, Repr

/-- A step that moves something. -/
def Action.moves : Action → Bool
  | .send _ n | .deliver _ n => decide (0 < n)

variable (side : Bool → List α → List α)

/-- One step of a dialogue. -/
def step (s : State α) : Action → Option (State α)
  | .send b n =>
    if (s.sent b).length + n ≤ (side b (s.input b)).length then
      some { s with
        sent := Function.update s.sent b ((side b (s.input b)).take ((s.sent b).length + n)) }
    else none
  | .deliver b n =>
    if s.got b + n ≤ (s.sent b).length then
      some { s with got := Function.update s.got b (s.got b + n) }
    else none

/-- The two sides, who have not said anything yet. -/
def machine : Machine (State α) Action Empty where
  init := ⟨fun _ => [], fun _ => 0⟩
  step s a := (step side s a).map fun s' => (s', [])

/-- All that the two sides say to each other, in as many turns as it takes. -/
structure Script (said : Bool → List α) : Prop where
  causal : ∀ b, Causal (side b)
  /-- Each side says this when the other does. -/
  fixed : ∀ b, side b (said !b) = said b
  /-- They do not stop before. -/
  least : ∀ l : Bool → List α, (∀ b, side b (l !b) = l b) → (∀ b, l b <+: said b) → l = said

variable {side} {said : Bool → List α} {s s' : State α} {a : Action}

/-! ## What a step can do -/

/-- What a step does. -/
inductive Effect (side : Bool → List α → List α) (s : State α) : Action → State α → Prop
  | send (b : Bool) (n : ℕ) (hn : (s.sent b).length + n ≤ (side b (s.input b)).length) :
      Effect side s (.send b n) { s with
        sent := Function.update s.sent b ((side b (s.input b)).take ((s.sent b).length + n)) }
  | deliver (b : Bool) (n : ℕ) (hn : s.got b + n ≤ (s.sent b).length) :
      Effect side s (.deliver b n) { s with got := Function.update s.got b (s.got b + n) }

theorem step_effect (h : step side s a = some s') : Effect side s a s' := by
  cases a with
  | send b n =>
    unfold step at h
    dsimp only at h
    split_ifs at h with hn
    obtain rfl := Option.some.inj h
    exact .send b n hn
  | deliver b n =>
    unfold step at h
    dsimp only at h
    split_ifs at h with hn
    obtain rfl := Option.some.inj h
    exact .deliver b n hn

/-! ## What is sent -/

/-- What is received was sent, what is sent was said, and that is no more than `said`. -/
structure Sound (side : Bool → List α → List α) (said : Bool → List α) (s : State α) : Prop where
  got : ∀ b, s.got b ≤ (s.sent b).length
  sent : ∀ b, s.sent b <+: side b (s.input b)
  said : ∀ b, s.sent b <+: said b

theorem input_isPrefix (s : State α) (b : Bool) : s.input b <+: s.sent !b :=
  List.take_prefix _ _

/-- Sending does not change what was received. -/
theorem Sound.input_send (h : Sound side said s) {b : Bool} {n : ℕ} (c : Bool) :
    State.input { s with
      sent := Function.update s.sent b ((side b (s.input b)).take ((s.sent b).length + n)) } c =
        s.input c := by
  unfold State.input
  dsimp only
  by_cases hc : (!c) = b
  · rw [hc, Function.update_self, List.take_take,
      min_eq_left ((h.got b).trans (Nat.le_add_right _ _))]
    obtain ⟨rest, hrest⟩ := h.sent b
    change List.take (s.got b) (side b (s.input b)) = _
    rw [← hrest, List.take_append_of_le_length (h.got b)]
  · rw [Function.update_of_ne hc]

theorem Sound.step (hscript : Script side said) (h : Sound side said s)
    (hstep : step side s a = some s') : Sound side said s' := by
  cases step_effect hstep with
  | send b n hn =>
    refine ⟨?_, fun c => ?_, ?_⟩
    · refine (Function.forall_update_iff s.sent (p := fun c l => s.got c ≤ l.length)).mpr
        ⟨?_, fun c _ => h.got c⟩
      rw [List.length_take, min_eq_left hn]
      exact (h.got b).trans (Nat.le_add_right _ _)
    · have hsent := (Function.forall_update_iff s.sent
        (p := fun c l => l <+: side c (s.input c))).mpr
          ⟨List.take_prefix ((s.sent b).length + n) (side b (s.input b)), fun c _ => h.sent c⟩
      rw [h.input_send]
      exact hsent c
    · refine (Function.forall_update_iff s.sent (p := fun c l => l <+: said c)).mpr
        ⟨?_, fun c _ => h.said c⟩
      have hinput : s.input b <+: said !b := (input_isPrefix s b).trans (h.said _)
      have hsaid := hscript.causal b hinput
      rw [hscript.fixed] at hsaid
      exact (List.take_prefix _ _).trans hsaid
  | deliver b n hn =>
    have hmore := (Function.forall_update_iff s.got (p := fun c k => s.got c ≤ k)).mpr
      ⟨Nat.le_add_right (s.got b) n, fun _ _ => le_rfl⟩
    refine ⟨?_, fun c => ?_, h.said⟩
    · exact (Function.forall_update_iff s.got (p := fun c k => k ≤ (s.sent c).length)).mpr
        ⟨hn, fun c _ => h.got c⟩
    · exact (h.sent c).trans (hscript.causal c (List.take_prefix_take_left (hmore _)))

theorem sound_reach (hscript : Script side said) {t : List Empty}
    (h : (machine side).Reach t s) : Sound side said s := by
  refine h.invariant (I := fun _ s => Sound side said s)
    ⟨fun _ => Nat.zero_le _, fun _ => List.nil_prefix, fun _ => List.nil_prefix⟩
    fun _ ih hstep => ?_
  obtain ⟨s', hs, heq⟩ := Option.map_eq_some_iff.mp hstep
  obtain ⟨rfl, -⟩ := Prod.mk.inj heq
  exact ih.step hscript hs

/-- A side that has received all has been sent all. -/
theorem Sound.of_input (h : Sound side said s) {b : Bool} (hinput : s.input (!b) = said b) :
    s.sent b = said b ∧ s.got b = (said b).length := by
  have hlen := congrArg List.length hinput
  rw [State.input, Bool.not_not, List.length_take] at hlen
  have hsent : s.sent b = said b := (h.said b).eq_of_length_le (hlen ▸ min_le_right _ _)
  have hgot := h.got b
  rw [hsent] at hgot hlen
  exact ⟨hsent, by omega⟩

/-! ## The end of a dialogue -/

/-- All is said and received. -/
def Over (said : Bool → List α) (s : State α) : Prop :=
  ∀ b, s.sent b = said b ∧ s.got b = (said b).length

/-- How much of what a side says is still to be sent or received. -/
def remaining (said : Bool → List α) (s : State α) (b : Bool) : ℕ :=
  (said b).length - (s.sent b).length + ((said b).length - s.got b)

/-- How much is still to be sent or received. -/
def left (said : Bool → List α) (s : State α) : ℕ :=
  remaining said s true + remaining said s false

theorem left_step (hscript : Script side said) (h : Sound side said s)
    (hstep : step side s a = some s') :
    left said s' + (if a.moves = true then 1 else 0) ≤ left said s := by
  have h' := h.step hscript hstep
  have hsent := fun b => (h'.said b).length_le
  have hgot := fun b => (h'.got b)
  cases step_effect hstep with
  | send b n hn =>
    have hlen : ((side b (s.input b)).take ((s.sent b).length + n)).length =
        (s.sent b).length + n := by
      rw [List.length_take, min_eq_left hn]
    cases b <;>
    · simp [left, remaining, Action.moves, hlen] at hsent hgot ⊢
      split_ifs <;> omega
  | deliver b n hn =>
    cases b <;>
    · simp [left, remaining, Action.moves] at hsent hgot ⊢
      split_ifs <;> omega

/-- What is left bounds the steps that move something. -/
theorem exec_left (hscript : Script side said) (h : Sound side said s) {as : List Action}
    {t : List Empty} (he : (machine side).exec s as = some (s', t)) :
    Sound side said s' ∧ as.countP Action.moves + left said s' ≤ left said s := by
  refine (machine side).exec_measure (P := fun _ => True) (I := Sound side said) (left said)
    Action.moves (fun hs _ hstep => ?_) h (fun _ _ => trivial) he
  obtain ⟨s₁, hs₁, heq⟩ := Option.map_eq_some_iff.mp hstep
  obtain ⟨rfl, -⟩ := Prod.mk.inj heq
  exact ⟨hs.step hscript hs₁, left_step hscript hs hs₁⟩

/-- Until all is said and received, something can be sent or received, within any positive
capacities of the streams. -/
theorem exists_moves (hscript : Script side said) (h : Sound side said s)
    (hover : ¬Over said s) : ∃ a s', a.moves = true ∧ step side s a = some s' ∧
      ∀ b, (s'.sent b).length - s'.got b ≤ max ((s.sent b).length - s.got b) 1 := by
  by_cases hflight : ∃ b, s.got b < (s.sent b).length
  · obtain ⟨b, hb⟩ := hflight
    refine ⟨.deliver b 1, _, rfl, if_pos hb, ?_⟩
    refine (Function.forall_update_iff s.got (p := fun c k =>
      (s.sent c).length - k ≤ max ((s.sent c).length - s.got c) 1)).mpr
        ⟨?_, fun c _ => le_max_left _ _⟩
    omega
  · have hgot : ∀ b, s.got b = (s.sent b).length := fun b =>
      le_antisymm (h.got b) (not_lt.mp fun hb => hflight ⟨b, hb⟩)
    by_cases hsend : ∃ b, (s.sent b).length + 1 ≤ (side b (s.input b)).length
    · obtain ⟨b, hb⟩ := hsend
      refine ⟨.send b 1, _, rfl, if_pos hb, ?_⟩
      refine (Function.forall_update_iff s.sent (p := fun c l =>
        l.length - s.got c ≤ max ((s.sent c).length - s.got c) 1)).mpr
          ⟨?_, fun c _ => le_max_left _ _⟩
      rw [List.length_take, min_eq_left hb, hgot]
      omega
    · have hinput : ∀ b, s.input b = s.sent !b := fun b => by
        rw [State.input, hgot, List.take_length]
      have hfixed : ∀ b, side b (s.sent !b) = s.sent b := fun b => by
        rw [← hinput]
        have hlen := not_le.mp fun hb => hsend ⟨b, hb⟩
        exact ((h.sent b).eq_of_length_le (Nat.le_of_lt_succ hlen)).symm
      have hsaid := hscript.least s.sent hfixed h.said
      exact absurd (fun b => ⟨congrFun hsaid b, by rw [hgot, hsaid]⟩) hover

end Dialogue
