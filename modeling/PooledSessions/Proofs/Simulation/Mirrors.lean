import PooledSessions.Simulation.Schedule
/-!
# Mirrored schedules

A map of states mirrors tasks if it leaves alone whatever decides who has the next turn and when the
clock moves, and if whoever moves in the image of a state moves there as in the state itself.  Then a
whole wait that starts in the image is the image of the wait (`Tasks.Mirrored.drive`).  All this is asked
only of states with a property that is never lost.
-/

namespace PooledSessions

variable {σ τ : Type} {P : σ → Prop} {f : σ → σ}

/-- In the image of a state, a move is made as in the state itself, and it never costs the property. -/
structure Mirrored (P : σ → Prop) (f : σ → σ) (move : σ → Option σ) : Prop where
  /-- It leads to the image of where it leads. -/
  image : ∀ s, P s → move (f s) = (move s).map f
  /-- The property is kept. -/
  keeps : ∀ s s', P s → move s = some s' → P s'

theorem Mirrored.of_forall {move : σ → Option σ}
    (h : ∀ s, P s → move (f s) = (move s).map f ∧ ∀ s', move s = some s' → P s') : Mirrored P f move :=
  ⟨fun s hs => (h s hs).1, fun s s' hs => (h s hs).2 s'⟩

theorem Mirrored.isSome {move : σ → Option σ} (h : Mirrored P f move) {s : σ} (hs : P s) :
    (move (f s)).isSome = (move s).isSome := by
  rw [h.image s hs, Option.isSome_map]

/-- Nobody moves. -/
theorem mirrored_none : Mirrored P f fun _ => none where
  image := fun _ _ => rfl
  keeps := fun _ _ _ hmove => nomatch hmove

/-- Moves that are made until there is none to make. -/
theorem Mirrored.exhaust {move : σ → Option σ} (h : Mirrored P f move) (n : Nat) {s : σ} (hs : P s) :
    exhaust move n (f s) = f (exhaust move n s) ∧ P (exhaust move n s) := by
  induction n generalizing s with
  | zero => exact ⟨rfl, hs⟩
  | succ n ih =>
    rw [PooledSessions.exhaust, PooledSessions.exhaust, h.image s hs]
    cases hmove : move s with
    | none => exact ⟨rfl, hs⟩
    | some s' => exact ih (h.keeps s s' hs hmove)

/-- A map that mirrors the tasks of a state. -/
structure Tasks.Mirrored (t : Tasks σ τ) (P : σ → Prop) (f : σ → σ) : Prop where
  /-- The clock shows the same. -/
  now : ∀ s, t.now (f s) = t.now s
  /-- The same tasks run in the background. -/
  background : ∀ s, t.background (f s) = t.background s
  /-- The same times are due. -/
  dues : ∀ s, t.dues (f s) = t.dues s
  /-- Setting the clock leads to the image. -/
  setClock : ∀ due s, P s → t.setClock due (f s) = f (t.setClock due s)
  /-- Setting the clock does not cost the property. -/
  clocked : ∀ due s, P s → P (t.setClock due s)
  /-- The tasks move as in the state itself. -/
  moves : ∀ x, PooledSessions.Mirrored P f (t.move · x)

/-- A map that mirrors what is waited for. -/
structure Goal.Mirrored (goal : Goal σ) (P : σ → Prop) (f : σ → σ) : Prop where
  /-- The foreground moves as in the state itself. -/
  moves : PooledSessions.Mirrored P f goal.move
  /-- The wait is over at once. -/
  reached : ∀ s, goal.reached (f s) = goal.reached s
  /-- It may be over at the same times. -/
  dues : ∀ s, goal.dues (f s) = goal.dues s

namespace Tasks.Mirrored

variable [DecidableEq τ] {t : Tasks σ τ} {goal : Goal σ}

theorem line (h : t.Mirrored P f) {s : σ} (hs : P s) (standing : List τ) :
    t.line (f s) standing = t.line s standing := by
  rw [Tasks.line, Tasks.line, h.background]
  congr 1
  refine List.filter_congr fun x _ => ?_
  rw [(h.moves x).isSome hs]

theorem settleLine (h : t.Mirrored P f) (n : Nat) (standing : List τ) {s : σ} (hs : P s) :
    t.settleLine n standing (f s) = f (t.settleLine n standing s) ∧ P (t.settleLine n standing s) := by
  induction n generalizing standing s with
  | zero => exact ⟨rfl, hs⟩
  | succ n ih =>
    rw [Tasks.settleLine, Tasks.settleLine, h.line hs]
    cases t.line s standing with
    | nil => exact ⟨rfl, hs⟩
    | cons x rest =>
      obtain ⟨himage, hkept⟩ := (h.moves x).exhaust patience hs
      dsimp only
      rw [himage]
      exact ih rest hkept

omit [DecidableEq τ] in
theorem nextDue (h : t.Mirrored P f) (hgoal : goal.Mirrored P f) (s : σ) :
    t.nextDue goal (f s) = t.nextDue goal s := by
  rw [Tasks.nextDue, Tasks.nextDue, h.now, h.dues, hgoal.dues]

theorem driveFor (h : t.Mirrored P f) (hgoal : goal.Mirrored P f) (n : Nat) :
    PooledSessions.Mirrored P f (t.driveFor goal n) := by
  induction n with
  | zero => exact mirrored_none
  | succ n ih =>
    refine .of_forall fun s hs => ?_
    obtain ⟨hmoved, hs₁⟩ := hgoal.moves.exhaust patience hs
    rw [Tasks.driveFor, Tasks.driveFor, hmoved]
    generalize exhaust goal.move patience s = s₁ at *
    dsimp only
    rw [hgoal.reached]
    split
    · exact ⟨rfl, fun s' hs' => Option.some.inj hs' ▸ hs₁⟩
    · obtain ⟨hsettled, hs₂⟩ := h.settleLine patience [] hs₁
      rw [Tasks.settle, Tasks.settle, hsettled]
      generalize t.settleLine patience [] s₁ = s₂ at *
      rw [hgoal.reached, hgoal.moves.isSome hs₂, h.nextDue hgoal]
      split
      · exact ⟨ih.image s₂ hs₂, fun s' => ih.keeps s₂ s' hs₂⟩
      · cases t.nextDue goal s₂ with
        | none => exact ⟨rfl, fun _ hnone => nomatch hnone⟩
        | some due =>
          dsimp only
          rw [h.setClock due s₂ hs₂]
          have hclocked := h.clocked due s₂ hs₂
          exact ⟨ih.image _ hclocked, fun s' => ih.keeps _ s' hclocked⟩

/-- A wait that starts in the image of a state is the image of the wait that starts there. -/
theorem drive (h : t.Mirrored P f) (hgoal : goal.Mirrored P f) :
    PooledSessions.Mirrored P f (t.drive goal) :=
  h.driveFor hgoal patience

end Tasks.Mirrored

/-- A wait keeps what the clock and all moves keep: every state is its own image. -/
theorem Tasks.keeps_of_drive [DecidableEq τ] {t : Tasks σ τ} {goal : Goal σ}
    (hclock : ∀ due s, P s → P (t.setClock due s)) (hmoves : ∀ x s s', P s → t.move s x = some s' → P s')
    (hgoal : ∀ s s', P s → goal.move s = some s' → P s') {s s' : σ} (hs : P s)
    (hdrive : t.drive goal s = some s') : P s' := by
  have hsame : ∀ {move : σ → Option σ}, (∀ s s', P s → move s = some s' → P s') →
      PooledSessions.Mirrored P id move := fun hkeeps => ⟨fun s _ => (Option.map_id_apply ..).symm, hkeeps⟩
  have htasks : t.Mirrored P id :=
    { now := fun _ => rfl
      background := fun _ => rfl
      dues := fun _ => rfl
      setClock := fun _ _ _ => rfl
      clocked := hclock
      moves := fun x => hsame (hmoves x) }
  have hforeground : goal.Mirrored P id := ⟨hsame hgoal, fun _ => rfl, fun _ => rfl⟩
  exact (htasks.drive hforeground).keeps s s' hs hdrive

/-- A wait is over only when its goal is reached. -/
theorem Tasks.reached_of_driveFor [DecidableEq τ] {t : Tasks σ τ} {goal : Goal σ} {n : Nat} {s s' : σ}
    (h : t.driveFor goal n s = some s') : goal.reached s' = true := by
  induction n generalizing s with
  | zero => cases h
  | succ n ih =>
    rw [driveFor] at h
    dsimp only at h
    split at h
    · rename_i hreached
      exact Option.some.inj h ▸ hreached
    · split at h
      · exact ih h
      · split at h
        · exact ih h
        · cases h

end PooledSessions
