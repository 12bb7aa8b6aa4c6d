import PooledSessions.Proofs.Classifier.Listing
/-!
# Adapters that are registered later

Adapters are asked in the order of their registration, and a later one is asked only about faults that all
earlier ones pass over (`Classifier.inspect_registerAll`).  So what is registered later is a conservative
extension: it changes nothing about a fault in which it has nothing to say on what the earlier adapters left
open (`Classifier.classify_registerAll`).
-/

namespace PooledSessions

namespace Classifier

variable {c c' : Classifier} {f : Fault}

/-- The classifier with more adapters, registered one after another. -/
def registerAll (c : Classifier) (more : List Adapter) : Classifier := more.foldl register c

@[simp] theorem adapters_registerAll (c : Classifier) (more : List Adapter) :
    (c.registerAll more).adapters = c.adapters ++ more := by
  induction more generalizing c with
  | nil => exact (List.append_nil _).symm
  | cons a more ih =>
    rw [registerAll, List.foldl_cons]
    exact (ih (c.register a)).trans (List.append_assoc c.adapters [a] more)

/-! ## One fault -/

/-- Adapters that all pass over a fault may as well be left out at the end. -/
theorem inspectWith_append_of_passes (earlier : List Adapter) {later : List Adapter}
    (hpasses : ∀ a ∈ later, a f = .passes) :
    inspectWith (earlier ++ later) f = inspectWith earlier f := by
  induction earlier with
  | nil => exact inspectWith_of_passes hpasses
  | cons a earlier ih =>
    rw [List.cons_append, inspectWith, inspectWith, ih]

/-- Once an adapter has recognised a fault or crashed on it, no later one is asked. -/
theorem inspectWith_append_of_mem {earlier : List Adapter} (later : List Adapter)
    (hheeded : ∃ a ∈ earlier, a f ≠ .passes) :
    inspectWith (earlier ++ later) f = inspectWith earlier f := by
  induction earlier with
  | nil =>
    obtain ⟨a, ha, -⟩ := hheeded
    cases ha
  | cons a earlier ih =>
    rw [List.cons_append, inspectWith, inspectWith]
    cases hverdict : a f with
    | crashes => rfl
    | recognises i => rfl
    | passes =>
      obtain ⟨b, hb, hheeds⟩ := hheeded
      rcases List.mem_cons.mp hb with rfl | hb
      · exact absurd hverdict hheeds
      · exact ih ⟨b, hb, hheeds⟩

/-- Later adapters add nothing to what is learned about a fault, if an earlier one does not pass over it or
if they all do. -/
theorem inspect_registerAll {more : List Adapter}
    (hsettled : (∃ a ∈ c.adapters, a f ≠ .passes) ∨ ∀ a ∈ more, a f = .passes) :
    (c.registerAll more).inspect f = c.inspect f := by
  rw [inspect, inspect, adapters_registerAll]
  rcases hsettled with hheeded | hpasses
  · exact inspectWith_append_of_mem more hheeded
  · exact inspectWith_append_of_passes c.adapters hpasses

/-! ## All that is looked at -/

/-- Adapters that agree on the faults at which the walk looks lead it along the same way. -/
theorem lookedAt_congr (n : Nat) (waiting : List (Fault × Nat))
    (h : ∀ f ∈ c.lookedAt n waiting, c'.inspect f = c.inspect f) :
    c'.lookedAt n waiting = c.lookedAt n waiting := by
  induction n generalizing waiting with
  | zero => cases waiting <;> rfl
  | succ n ih =>
    cases waiting with
    | nil => rfl
    | cons x waiting =>
      obtain ⟨f, depth⟩ := x
      rw [lookedAt, List.forall_mem_cons] at h
      obtain ⟨hhead, hrest⟩ := h
      rw [lookedAt, lookedAt, hhead]
      cases hinspect : c.inspect f with
      | none => rfl
      | some i =>
        rw [hinspect] at hrest
        dsimp only at hrest ⊢
        cases hcarried : i.code with
        | none =>
          rw [hcarried] at hrest
          exact congrArg _ (ih _ hrest)
        | some code =>
          rw [hcarried] at hrest
          cases code with
          | transport code => rfl
          | status code => exact congrArg _ (ih _ hrest)

/-- Where the later adapters have nothing to say on what is looked at and the earlier ones left open, the
walk looks at the same faults and finds the same. -/
theorem findCodes_registerAll {more : List Adapter}
    (hsettled : ∀ x ∈ c.inspected f, (∃ a ∈ c.adapters, a x ≠ .passes) ∨ ∀ a ∈ more, a x = .passes) :
    (c.registerAll more).inspected f = c.inspected f ∧
      (c.registerAll more).findCodes f = c.findCodes f := by
  have hagree : ∀ x ∈ c.inspected f, (c.registerAll more).inspect x = c.inspect x :=
    fun x hx => inspect_registerAll (hsettled x hx)
  exact ⟨lookedAt_congr maxVisited [(f, 0)] hagree, walk_congr maxVisited [(f, 0)] none hagree⟩

/-- Registering more adapters is a conservative extension.  If each fault at which a classification looks is
one that an earlier adapter does not pass over, or one that all later adapters pass over, then the
classification with the later adapters looks at the same faults, finds the same codes, crashes in the same
cases and reports the same.  In particular nothing that is registered later, whatever it recognises and
wherever it crashes, has an influence on a fault all of whose parts are recognised already. -/
theorem classify_registerAll (c : Classifier) (f : Fault) :
    (∀ more : List Adapter,
      (∀ x ∈ c.inspected f, (∃ a ∈ c.adapters, a x ≠ .passes) ∨ ∀ a ∈ more, a x = .passes) →
      (c.registerAll more).inspected f = c.inspected f ∧
        (c.registerAll more).findCodes f = c.findCodes f ∧
        (c.registerAll more).classify f = c.classify f ∧
        (c.registerAll more).classifyEvents f = c.classifyEvents f) ∧
      ((∀ x ∈ c.inspected f, ∃ a ∈ c.adapters, ∃ i, a x = .recognises i) →
        ∀ more : List Adapter, (c.registerAll more).findCodes f = c.findCodes f ∧
          (c.registerAll more).classify f = c.classify f) := by
  constructor
  · intro more hsettled
    obtain ⟨hinspected, hcodes⟩ := findCodes_registerAll hsettled
    refine ⟨hinspected, hcodes, ?_, ?_⟩
    · rw [classify, classify, hcodes]
    · rw [classifyEvents, classifyEvents, hcodes]
  · intro hrecognised more
    have hcodes : (c.registerAll more).findCodes f = c.findCodes f := by
      refine (findCodes_registerAll fun x hx => Or.inl ?_).2
      obtain ⟨a, ha, i, hverdict⟩ := hrecognised x hx
      exact ⟨a, ha, by rw [hverdict]; exact Verdict.noConfusion⟩
    exact ⟨hcodes, by rw [classify, classify, hcodes]⟩

/-- A failed call inside an input or output error is recognised through and through, whatever crashes
later; around it stands a text, which neither the earlier nor the later adapters know. -/
theorem classify_registerAll_of_lost :
    (standard.registerAll [.crashing, .rpcAsOverload]).classify
        (.io .other (some (.rpc (.status .aborted "lost")))) = ⟨none, some .aborted⟩ ∧
      (standard.registerAll [.rpcAsOverload, .crashingOnLegacy]).classify
        (.wrapped "while working" (some (.rpc (.status .aborted "lost")))) = ⟨none, some .aborted⟩ := by
  let lost : Fault := .rpc (.status .aborted "lost")
  have hinside : standard.inspected (.io .other (some lost)) = [.io .other (some lost), lost] := rfl
  have haround : standard.inspected (.wrapped "while working" (some lost)) =
      [.wrapped "while working" (some lost), lost] := rfl
  have hknown : ∃ a ∈ standard.adapters, ∃ i, a lost = .recognises i := ⟨.rpc, by simp [standard], _, rfl⟩
  constructor
  · refine ((classify_registerAll standard (.io .other (some lost))).2 ?_ _).2.trans (by decide)
    rw [hinside, List.forall_mem_cons, List.forall_mem_singleton]
    exact ⟨⟨.io, by simp [standard], _, rfl⟩, hknown⟩
  · refine ((classify_registerAll standard (.wrapped "while working" (some lost))).1 _ ?_).2.2.1.trans
      (by decide)
    rw [haround, List.forall_mem_cons, List.forall_mem_singleton]
    obtain ⟨a, ha, i, hverdict⟩ := hknown
    exact ⟨Or.inr (by simp [Adapter.rpcAsOverload, Adapter.crashingOnLegacy]),
      Or.inl ⟨a, ha, by rw [hverdict]; exact Verdict.noConfusion⟩⟩

end Classifier

end PooledSessions
