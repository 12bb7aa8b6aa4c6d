import PooledSessions.Proofs.Classifier.Wrapping
/-!
# Wrappers around a fault

A fault that has a cause, and in which a classifier finds nothing else, is a wrapper of that cause
(`Classifier.Wraps`): an error of a type that no adapter knows, or one of this library's own errors around
another.  With `k` wrappers around it (`Classifier.Layered`), a fault stands `k` steps deeper in the walk and
`k` places further behind in the listing, and the wrappers in front of it are read over.

So wrappers leave a classification as it is, as long as all that is inside the fault stays within the bounds
of the walk (`Classifier.classify_layered`).  The bound on the depth is sharp: the code of a fault without
anything inside it is found through 32 wrappers and not through 33.
-/

namespace PooledSessions

/-- The failure of a fault that carries one code. -/
def Failure.ofCode : Code → Failure
  | .transport code => ⟨some code, none⟩
  | .status code => ⟨none, some code⟩

namespace Classifier

variable {c : Classifier} {e f w x : Fault} {k depth : Nat}

/-- The fault `w` wraps the fault `e`: `e` is its cause, and the classifier finds nothing else in it. -/
structure Wraps (c : Classifier) (w e : Fault) : Prop where
  /-- The wrapped fault is the cause. -/
  cause : w.cause = some e
  /-- The wrapper has no code and no members. -/
  inspect : c.inspect w = some .blank

/-- A fault with a number of wrappers around it. -/
inductive Layered (c : Classifier) (e : Fault) : Nat → Fault → Prop
  /-- The fault itself. -/
  | bare : Layered c e 0 e
  /-- One more wrapper around a fault that is wrapped already. -/
  | wrap {k : Nat} {x w : Fault} (hwraps : c.Wraps w x) (h : Layered c e k x) : Layered c e (k + 1) w

/-! ## What is a wrapper -/

/-- An error that no adapter knows wraps its cause. -/
theorem wraps_of_passes (hpasses : ∀ a ∈ c.adapters, a w = .passes) (hcause : w.cause = some e) :
    c.Wraps w e :=
  ⟨hcause, inspectWith_of_passes hpasses⟩

/-- Only the wrapped fault is found inside a wrapper. -/
theorem Wraps.inside (h : c.Wraps w e) : c.inside w = [e] := by
  rw [Classifier.inside, h.cause, h.inspect]
  rfl

theorem Wraps.spread (h : c.Wraps w e) (depth : Nat) : c.spread (depth + 1) w = w :: c.spread depth e := by
  rw [Classifier.spread, h.inside, List.flatMap_singleton]

/-! ## Wrappers in a listing -/

/-- The wrappers stand in front of all that is inside the fault. -/
theorem Layered.spread (h : c.Layered e k w) : ∃ wrappers : List Fault, wrappers.length = k ∧
    (∀ x ∈ wrappers, c.inspect x = some .blank) ∧
      ∀ depth, c.spread (depth + k) w = wrappers ++ c.spread depth e := by
  induction h with
  | bare => exact ⟨[], rfl, by simp, fun depth => rfl⟩
  | @wrap k x w hwraps _ ih =>
    obtain ⟨wrappers, hlength, hblank, hspread⟩ := ih
    refine ⟨w :: wrappers, by rw [List.length_cons, hlength], List.forall_mem_cons.mpr ⟨hwraps.inspect, hblank⟩,
      fun depth => ?_⟩
    rw [← Nat.add_assoc, hwraps.spread, hspread, List.cons_append]

/-- Where the walk does not go deep enough, it finds only wrappers. -/
theorem Layered.blank_of_mem_spread (h : c.Layered e k w) (hdeep : depth < k) :
    ∀ x ∈ c.spread depth w, c.inspect x = some .blank := by
  induction h generalizing depth with
  | bare => exact absurd hdeep (Nat.not_lt_zero _)
  | wrap hwraps _ ih =>
    cases depth with
    | zero =>
      intro x hx
      rw [List.mem_singleton.mp hx]
      exact hwraps.inspect
    | succ depth =>
      rw [hwraps.spread]
      exact List.forall_mem_cons.mpr ⟨hwraps.inspect, ih (Nat.lt_of_succ_lt_succ hdeep)⟩

/-- Wrappers are read over. -/
theorem scan_append_of_blank {wrappers : List Fault} (hblank : ∀ x ∈ wrappers, c.inspect x = some .blank)
    (faults : List Fault) (status : Option StatusCode) :
    c.scan (wrappers ++ faults) status = c.scan faults status := by
  induction wrappers with
  | nil => rfl
  | cons x wrappers ih =>
    rw [List.forall_mem_cons] at hblank
    rw [List.cons_append, scan, hblank.1]
    exact ih hblank.2

/-! ## Classification -/

/-- The listing of a fault with wrappers around it, if all that is inside it is within the bounds. -/
theorem Layered.reached (h : c.Layered e k w) (hends : c.endsWithin depth e = true)
    (hdepth : depth + k ≤ maxDepth) (hmany : (c.spread depth e).length + k ≤ maxVisited) :
    ∃ wrappers : List Fault, (∀ x ∈ wrappers, c.inspect x = some .blank) ∧
      c.reached w = wrappers ++ c.reached e := by
  obtain ⟨wrappers, hlength, hblank, hspread⟩ := h.spread
  have hwhole : c.spread maxDepth w = wrappers ++ c.spread depth e := by
    have hsplit : maxDepth = maxDepth - k + k := by omega
    rw [hsplit, hspread, spread_of_endsWithin hends (by omega)]
  refine ⟨wrappers, hblank, ?_⟩
  rw [Classifier.reached, hwhole, List.take_of_length_le, reached_eq hends (by omega) (by omega)]
  rw [List.length_append, hlength]
  omega

theorem Layered.findCodes_eq (h : c.Layered e k w) (hends : c.endsWithin depth e = true)
    (hdepth : depth + k ≤ maxDepth) (hmany : (c.spread depth e).length + k ≤ maxVisited) :
    c.findCodes w = c.findCodes e := by
  obtain ⟨wrappers, hblank, hreached⟩ := h.reached hends hdepth hmany
  rw [findCodes_eq_scan, findCodes_eq_scan, hreached, scan_append_of_blank hblank]

/-- Nothing is found in a fault that stands too deep. -/
theorem Layered.findCodes_of_deep (h : c.Layered e k w) (hdeep : maxDepth < k) :
    c.findCodes w = some .unclassified := by
  have hblank : ∀ x ∈ c.reached w, c.inspect x = some .blank := fun x hx =>
    h.blank_of_mem_spread hdeep x (List.mem_of_mem_take hx)
  have hscan := scan_append_of_blank hblank [] none
  rw [List.append_nil] at hscan
  rw [findCodes_eq_scan, hscan]
  rfl

/-- The only code of a fault without anything inside it is found. -/
theorem findCodes_of_coded {code : Code} (hinspect : c.inspect e = some ⟨some code, []⟩)
    (hcause : e.cause = none) :
    c.endsWithin 0 e = true ∧ c.findCodes e = some (.ofCode code) := by
  have hinside : c.inside e = [] := by
    rw [inside, hcause, hinspect]
    rfl
  have hends : c.endsWithin 0 e = true := by
    rw [endsWithin, hinside]
    rfl
  have hreached : c.reached e = [e] := reached_eq hends (Nat.zero_le _) (show 1 ≤ maxVisited by decide)
  refine ⟨hends, ?_⟩
  rw [findCodes_eq_scan, hreached, scan, hinspect]
  cases code <;> rfl

/-- Around a fault of which nothing is deeper than `depth` steps, `k` wrappers leave the classification as it
is, if `depth + k` is at most 32 and there are with them no more than 256 faults: the same codes are found,
and so the same class and the same verdict on the session, and an adapter crashes on the one exactly if one
crashes on the other.  A code that is all there is in a fault is found through up to 32 wrappers, and through
more of them nothing is found.  Every error that no adapter knows wraps its cause; under the standard
classifier so do an execution that failed with its operation's error or for want of a session, and a creation
that failed. -/
theorem classify_layered (c : Classifier) :
    (∀ e w k depth, c.Layered e k w → c.endsWithin depth e = true → depth + k ≤ 32 →
      (c.spread depth e).length + k ≤ 256 →
      c.findCodes w = c.findCodes e ∧ c.classify w = c.classify e) ∧
      (∀ e w k code, c.Layered e k w → c.inspect e = some ⟨some code, []⟩ → e.cause = none →
        c.findCodes w = some (if k ≤ 32 then .ofCode code else .unclassified)) ∧
      (∀ w e, (∀ a ∈ c.adapters, a w = .passes) → w.cause = some e → c.Wraps w e) ∧
      (∀ error, standard.Wraps (.driver (.rpc error)) (.rpc error)) ∧
      (∀ error, standard.Wraps (.driver (.pool error)) (.pool error)) ∧
      ∀ error exhausted, standard.Wraps (.pool (.creationFailed error exhausted)) (.rpc error) := by
  refine ⟨?_, ?_, fun _ _ => wraps_of_passes, fun _ => ⟨rfl, rfl⟩, fun _ => ⟨rfl, rfl⟩, fun _ _ => ⟨rfl, rfl⟩⟩
  · intro e w k depth h hends hdepth hmany
    have hcodes := h.findCodes_eq hends hdepth hmany
    exact ⟨hcodes, by rw [classify, classify, hcodes]⟩
  · intro e w k code h hinspect hcause
    obtain ⟨hends, hfound⟩ := findCodes_of_coded hinspect hcause
    by_cases hk : k ≤ 32
    · have hone : (c.spread 0 e).length = 1 := rfl
      rw [if_pos hk, ← hfound]
      refine h.findCodes_eq hends ?_ ?_
      · rw [maxDepth]
        omega
      · rw [hone, maxVisited]
        omega
    · rw [if_neg hk]
      exact h.findCodes_of_deep (Nat.lt_of_not_le hk)

/-- A fault with so many texts around it that tell what it was for. -/
def buried : Nat → Fault → Fault
  | 0, e => e
  | k + 1, e => .wrapped "while working" (some (buried k e))

theorem layered_buried (k : Nat) (e : Fault) : standard.Layered e k (buried k e) := by
  induction k with
  | zero => exact .bare
  | succ k ih => exact .wrap ⟨rfl, rfl⟩ ih

/-- A failed call, which carries nothing but its code, and an input or output error around it, which is one
step deeper. -/
theorem classify_layered_of_buried :
    standard.classify (buried 31 (.io .other (some (.rpc (.status .aborted "lost"))))) = ⟨none, some .aborted⟩ ∧
      standard.findCodes (buried 32 (.rpc (.status .aborted "lost"))) = some ⟨none, some .aborted⟩ ∧
      standard.findCodes (buried 33 (.rpc (.status .aborted "lost"))) = some .unclassified ∧
      standard.Wraps (.wrapped "while working" (some .cancelled)) .cancelled := by
  obtain ⟨hsame, hcode, hunknown, -⟩ := classify_layered standard
  refine ⟨?_, ?_, ?_, ?_⟩
  · rw [(hsame _ _ 31 1 (layered_buried 31 _) (by decide) (by decide) (by decide)).2]
    decide
  · exact hcode _ _ 32 (.status .aborted) (layered_buried 32 _) rfl rfl
  · exact hcode _ _ 33 (.status .aborted) (layered_buried 33 _) rfl rfl
  · refine hunknown _ _ (fun a ha => ?_) rfl
    have hstandard : a = .rpc ∨ a = .pool ∨ a = .io := by simpa [standard] using ha
    rcases hstandard with rfl | rfl | rfl <;> rfl

end Classifier

end PooledSessions
