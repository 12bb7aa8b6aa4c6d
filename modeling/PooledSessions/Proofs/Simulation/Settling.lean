import Mathlib
import PooledSessions.Simulation.Schedule
/-!
# Schedules that come to rest

If each move leaves less to do (`Tasks.Wanes`), then a task that is given a turn comes to wait, and all tasks wait
when the line has been served (`Tasks.Wanes.settle`).  If somebody moves, besides, whenever the clock has
gone to the next time at which something is due, every wait comes to its end (`Tasks.Wanes.driveFor`).
-/

namespace PooledSessions

variable {σ τ : Type} {P : σ → Prop} {effort : σ → Nat} {s s' s'' : σ}

/-- A state is the same as before, or there is less to do. -/
structure Ebbs (P : σ → Prop) (effort : σ → Nat) (s s' : σ) : Prop where
  /-- The property is kept. -/
  kept : P s'
  /-- Nothing has been done, or less is left. -/
  less : s' = s ∨ effort s' < effort s

theorem Ebbs.le (h : Ebbs P effort s s') : effort s' ≤ effort s := by
  rcases h.less with rfl | hlt
  · exact Nat.le_refl _
  · exact hlt.le

theorem Ebbs.trans (h : Ebbs P effort s s') (h' : Ebbs P effort s' s'') : Ebbs P effort s s'' := by
  refine ⟨h'.kept, ?_⟩
  rcases h.less with rfl | hlt
  · exact h'.less
  · exact Or.inr (h'.le.trans_lt hlt)

/-- Each move leaves less to do. -/
def Shrinks (P : σ → Prop) (effort : σ → Nat) (move : σ → Option σ) : Prop :=
  ∀ s s', P s → move s = some s' → P s' ∧ effort s' < effort s

/-- Whoever may move as often as he likes comes to wait. -/
theorem Shrinks.exhaust {move : σ → Option σ} (h : Shrinks P effort move) {n : Nat} (hs : P s)
    (hn : effort s ≤ n) : Ebbs P effort s (exhaust move n s) ∧ move (exhaust move n s) = none := by
  induction n generalizing s with
  | zero =>
    refine ⟨⟨hs, Or.inl rfl⟩, Option.eq_none_iff_forall_ne_some.mpr fun s' hmove => ?_⟩
    have := (h s s' hs hmove).2
    omega
  | succ n ih =>
    rw [PooledSessions.exhaust]
    cases hmove : move s with
    | none => exact ⟨⟨hs, Or.inl rfl⟩, hmove⟩
    | some s' =>
      obtain ⟨hs', hlt⟩ := h s s' hs hmove
      obtain ⟨hebbs, hnone⟩ := ih hs' (by omega)
      exact ⟨⟨hebbs.kept, Or.inr (hebbs.le.trans_lt hlt)⟩, hnone⟩

namespace Tasks

variable [DecidableEq τ] {t : Tasks σ τ} {goal : Goal σ} {crowd : Nat} {standing rest : List τ} {x : τ}

/-- In states with a property that is never lost each move leaves less to do, and there are no more tasks
than `crowd`.  There is patience enough to serve all of them. -/
structure Wanes (t : Tasks σ τ) (P : σ → Prop) (effort : σ → Nat) (crowd : Nat) : Prop where
  /-- Each move leaves less to do. -/
  moves : ∀ x, Shrinks P effort (t.move · x)
  /-- There are not too many tasks. -/
  crowded : ∀ s, P s → (t.background s).length ≤ crowd
  /-- There is patience enough. -/
  patient : ∀ s, P s → effort s * (crowd + 1) + crowd ≤ patience

/-- All tasks wait. -/
def Waiting (t : Tasks σ τ) (s : σ) : Prop := ∀ x ∈ t.background s, t.move s x = none

/-- Whoever has something to do stands in line. -/
theorem mem_line (hx : x ∈ t.background s) (hmove : t.move s x ≠ none) : x ∈ t.line s standing := by
  by_cases hin : x ∈ standing
  · exact List.mem_append_left _ hin
  · refine List.mem_append_right _ (List.mem_filter.mpr ⟨hx, ?_⟩)
    simp [hin, Option.isSome_iff_ne_none, hmove]

theorem waiting_of_line (hline : t.line s standing = []) : t.Waiting s := by
  intro x hx
  by_contra hmove
  have hin : x ∈ t.line s standing := mem_line hx hmove
  rw [hline] at hin
  cases hin

/-- If the first in line has nothing to do after all, the others remain in line. -/
theorem line_of_rest (hline : t.line s standing = x :: rest) (hnone : t.move s x = none) :
    t.line s rest = rest := by
  refine List.append_right_eq_self.mpr (List.filter_eq_nil_iff.mpr ?_)
  intro y hy
  rw [Bool.and_eq_true, not_and, Bool.not_eq_true', Option.isSome_iff_ne_none]
  intro hout hmove
  have hin : y ∈ t.line s standing := mem_line hy hmove
  rw [hline] at hin
  rcases List.mem_cons.mp hin with rfl | hin
  · exact hmove hnone
  · simp [hin] at hout

namespace Wanes

theorem length_line_le (h : t.Wanes P effort crowd) (hs : P s) (standing : List τ) :
    (t.line s standing).length ≤ standing.length + crowd := by
  rw [line, List.length_append]
  exact Nat.add_le_add_left ((List.length_filter_le ..).trans (h.crowded s hs)) _

omit [DecidableEq τ] in
theorem effort_le (h : t.Wanes P effort crowd) (hs : P s) : effort s ≤ patience := by
  have hle : effort s * 1 ≤ effort s * (crowd + 1) := Nat.mul_le_mul_left _ (Nat.le_add_left 1 crowd)
  have := h.patient s hs
  omega

/-- When the line has been served, all tasks wait. -/
theorem settleLine (h : t.Wanes P effort crowd) {n : Nat} (hs : P s)
    (hn : effort s * (crowd + 1) + (t.line s standing).length ≤ n) :
    Ebbs P effort s (t.settleLine n standing s) ∧ t.Waiting (t.settleLine n standing s) := by
  induction n generalizing s standing with
  | zero =>
    have hline : t.line s standing = [] := List.eq_nil_of_length_eq_zero (by omega)
    exact ⟨⟨hs, Or.inl rfl⟩, waiting_of_line hline⟩
  | succ n ih =>
    rw [Tasks.settleLine]
    cases hline : t.line s standing with
    | nil => exact ⟨⟨hs, Or.inl rfl⟩, waiting_of_line hline⟩
    | cons x rest =>
      obtain ⟨hebbs, hnone⟩ := (h.moves x).exhaust hs (h.effort_le hs)
      rw [hline, List.length_cons] at hn
      dsimp only at hebbs hnone ⊢
      generalize exhaust (t.move · x) patience s = s₁ at *
      have hfewer : effort s₁ * (crowd + 1) + (t.line s₁ rest).length ≤ n := by
        rcases hebbs.less with rfl | hlt
        · rw [line_of_rest hline hnone]
          omega
        · have hmore := h.length_line_le hebbs.kept rest
          have hmul : (effort s₁ + 1) * (crowd + 1) ≤ effort s * (crowd + 1) := Nat.mul_le_mul_right _ hlt
          rw [Nat.succ_mul] at hmul
          omega
      obtain ⟨hebbs', hwaiting⟩ := ih hebbs.kept hfewer
      exact ⟨hebbs.trans hebbs', hwaiting⟩

theorem settle (h : t.Wanes P effort crowd) (hs : P s) :
    Ebbs P effort s (t.settle s) ∧ t.Waiting (t.settle s) := by
  refine h.settleLine hs ?_
  have hline := h.length_line_le hs []
  have hpatient := h.patient s hs
  rw [List.length_nil] at hline
  omega

/-- Somebody has a move to make, in the foreground or in the background. -/
def Ready (t : Tasks σ τ) (goal : Goal σ) (s : σ) : Prop :=
  goal.move s ≠ none ∨ ∃ x ∈ t.background s, t.move s x ≠ none

/-- A wait that is over takes no time. -/
theorem driveFor_of_reached {goal : Goal σ} (hreached : goal.reached s = true)
    (hnone : goal.move s = none) (n : Nat) : t.driveFor goal (n + 1) s = some s := by
  have hstill : exhaust goal.move patience s = s := by rw [patience, exhaust, hnone]
  rw [Tasks.driveFor, hstill]
  exact if_pos hreached

/-- Every wait comes to its end, if somebody has a move to make whenever the clock has gone on. -/
theorem driveFor (h : t.Wanes P effort crowd) (hgoal : Shrinks P effort goal.move)
    (hclock : ∀ s, P s → goal.reached s = false → goal.move s = none → t.Waiting s →
      ∃ due, t.nextDue goal s = some due ∧ P (t.setClock due s) ∧
        effort (t.setClock due s) = effort s ∧ Ready t goal (t.setClock due s))
    {n : Nat} (hs : P s) (hn : effort s + 2 ≤ n ∨ effort s + 1 ≤ n ∧ Ready t goal s) :
    ∃ s', t.driveFor goal n s = some s' ∧ P s' := by
  induction n generalizing s with
  | zero => omega
  | succ n ih =>
    rw [Tasks.driveFor]
    obtain ⟨hebbs₁, hnone₁⟩ := hgoal.exhaust hs (h.effort_le hs)
    dsimp only at hnone₁ ⊢
    generalize exhaust goal.move patience s = s₁ at *
    cases hreached₁ : goal.reached s₁ with
    | true => exact ⟨s₁, by simp, hebbs₁.kept⟩
    | false =>
      obtain ⟨hebbs₂, hwaiting⟩ := h.settle hebbs₁.kept
      generalize t.settle s₁ = s₂ at *
      have hebbs := hebbs₁.trans hebbs₂
      -- if there is nothing to do, the clock goes on
      have hlater : goal.reached s₂ = false → goal.move s₂ = none → effort s₂ + 1 ≤ n →
          ∃ due s', t.nextDue goal s₂ = some due ∧ t.driveFor goal n (t.setClock due s₂) = some s' ∧ P s' := by
        intro hreached hnone hn
        obtain ⟨due, hdue, hkept, hsame, hready⟩ := hclock s₂ hebbs.kept hreached hnone hwaiting
        obtain ⟨s', hdrive, hkept'⟩ := ih hkept (Or.inr ⟨hsame ▸ hn, hready⟩)
        exact ⟨due, s', hdue, hdrive, hkept'⟩
      rw [if_neg Bool.false_ne_true]
      rcases hebbs.less with hsame | hlt
      · have hstill : s₁ = s := hebbs₁.less.resolve_right fun hlt => by
          have := hebbs₂.le
          rw [hsame] at this
          omega
        subst hsame hstill
        have hidle : ¬ Ready t goal s₁ := by
          rintro (hmove | ⟨x, hx, hmove⟩)
          · exact hmove hnone₁
          · exact hmove (hwaiting x hx)
        have hn' : effort s₁ + 1 ≤ n := by
          rcases hn with hn | ⟨-, hready⟩
          · omega
          · exact absurd hready hidle
        obtain ⟨due, s', hdue, hdrive, hkept⟩ := hlater hreached₁ hnone₁ hn'
        rw [hreached₁, hnone₁, if_neg (by simp), hdue]
        exact ⟨s', hdrive, hkept⟩
      · have hn' : effort s₂ + 1 ≤ n := by omega
        cases hmove : goal.move s₂ with
        | some s₃ =>
          rw [if_pos (by simp)]
          exact ih hebbs.kept (Or.inr ⟨hn', Or.inl (by simp [hmove])⟩)
        | none =>
          cases hreached : goal.reached s₂ with
          | false =>
            obtain ⟨due, s', hdue, hdrive, hkept⟩ := hlater hreached hmove hn'
            rw [if_neg (by simp), hdue]
            exact ⟨s', hdrive, hkept⟩
          | true =>
            rw [if_pos (by simp)]
            obtain ⟨k, rfl⟩ : ∃ k, n = k + 1 := ⟨n - 1, by omega⟩
            exact ⟨s₂, driveFor_of_reached hreached hmove k, hebbs.kept⟩

end Wanes

end Tasks

end PooledSessions
