import PooledSessions.Proofs.Classifier.Listing
/-!
# An input or output error around a fault

An input or output error is its payload's stand-in: it has the text of the payload, and for its cause it
names the payload's cause.  The payload itself is only a member, so the walk visits it after its own cause,
and then visits the cause once more.

What is read off a listing in two parts is what is read off the first part, followed by what is read off
the second (`Failure.followedBy`).  So to meet the cause once more changes nothing, and to meet it early
changes nothing unless the payload carries a code that the cause gets ahead of
(`Classifier.classify_around`).  This does happen (`Classifier.doubt_lost_of_wrapping`).
-/

namespace PooledSessions

/-! ## Findings in order -/

namespace Failure

/-- What is found if the codes of `a` are met first and those of `b` then. -/
def followedBy (a b : Failure) : Failure :=
  match a.transport with
  | some _ => a
  | none => ⟨b.transport, a.status <|> b.status⟩

@[simp] theorem unclassified_followedBy (a : Failure) : unclassified.followedBy a = a := rfl

/-- What was met already can be met again without effect. -/
theorem followedBy_again (a b : Failure) : a.followedBy (a.followedBy b) = a.followedBy b := by
  obtain ⟨transport, status⟩ := a
  cases transport with
  | some code => rfl
  | none => cases status <;> rfl

end Failure

namespace Classifier

variable (c : Classifier)

theorem readOff_cons (f : Fault) (faults : List Fault) :
    c.readOff (f :: faults) = Failure.followedBy ⟨c.transportOf f, c.statusOf f⟩ (c.readOff faults) := by
  cases htransport : c.transportOf f with
  | none => exact readOff_cons_of_none htransport faults
  | some code =>
    have hstatus : c.statusOf f = none := by
      unfold transportOf at htransport
      unfold statusOf
      split at htransport
      · rename_i hcode
        rw [hcode]
      · cases htransport
    rw [readOff_cons_of_some htransport, hstatus]
    rfl

/-- The first part of a listing is met before the second one. -/
theorem readOff_append (xs ys : List Fault) :
    c.readOff (xs ++ ys) = (c.readOff xs).followedBy (c.readOff ys) := by
  induction xs with
  | nil => rfl
  | cons f xs ih =>
    rw [List.cons_append, readOff_cons, readOff_cons, ih]
    generalize c.transportOf f = transport
    cases transport with
    | some code => rfl
    | none =>
      generalize c.readOff xs = a
      obtain ⟨found, status⟩ := a
      cases found with
      | some code => rfl
      | none =>
        generalize c.statusOf f = first
        cases first <;> rfl

/-- A fault without a code of its own is not noticed. -/
theorem readOff_cons_of_codeless {f : Fault} (hcode : c.codeOf f = none) (faults : List Fault) :
    c.readOff (f :: faults) = c.readOff faults := by
  have htransport : c.transportOf f = none := by rw [transportOf, hcode]
  have hstatus : c.statusOf f = none := by rw [statusOf, hcode]
  rw [readOff_cons, htransport, hstatus]
  rfl

theorem readOff_of_codeless {faults : List Fault} (h : ∀ f ∈ faults, c.codeOf f = none) :
    c.readOff faults = .unclassified := by
  induction faults with
  | nil => rfl
  | cons f faults ih =>
    rw [List.forall_mem_cons] at h
    rw [c.readOff_cons_of_codeless h.1, ih h.2]

/-! ## Bounds -/

/-- Whether no fault is found more than so many steps inside a fault. -/
def endsWithin : Nat → Fault → Bool
  | 0, f => (c.inside f).isEmpty
  | depth + 1, f => (c.inside f).all (endsWithin depth)

variable {c}

/-- To go deeper than a fault goes finds nothing more. -/
theorem spread_of_endsWithin {depth : Nat} {f : Fault} (h : c.endsWithin depth f = true) {k : Nat}
    (hk : depth ≤ k) : c.spread k f = c.spread depth f := by
  induction depth generalizing f k with
  | zero =>
    have hnone : c.inside f = [] := List.isEmpty_iff.mp h
    cases k with
    | zero => rfl
    | succ k => rw [spread, spread, hnone, List.flatMap_nil]
  | succ depth ih =>
    obtain ⟨k, rfl⟩ : ∃ j, k = j + 1 := ⟨k - 1, by omega⟩
    rw [spread, spread]
    congr 1
    refine List.flatMap_congr fun x hx => ih (List.all_eq_true.mp h x hx) (by omega)

/-- A fault inside one that goes so deep goes one step less deep. -/
theorem endsWithin_of_mem_inside {depth : Nat} {f x : Fault} (h : c.endsWithin (depth + 1) f = true)
    (hx : x ∈ c.inside f) : c.endsWithin depth x = true :=
  List.all_eq_true.mp h x hx

/-! ## The standard classifier -/

/-- None of the standard adapters crashes. -/
theorem exists_inspect_standard (f : Fault) : ∃ i, standard.inspect f = some i := by
  cases f <;> exact ⟨_, rfl⟩

/-- The standard classifier finds what can be read off the listing of a fault. -/
theorem classify_standard (f : Fault) : standard.classify f = standard.readOff (standard.reached f) := by
  have hcalm : (standard.inFront (standard.reached f)).any standard.crashesOn = false := by
    refine List.any_eq_false.mpr fun x _ => ?_
    obtain ⟨i, hi⟩ := exists_inspect_standard x
    rw [crashesOn, hi]
    exact Bool.false_ne_true
  rw [(classify_eq_listing standard f).1, hcalm]
  rfl

/-- An input or output error without a code around another fault. -/
def around (e : Fault) : Fault := .io .other (some e)

/-- In the listing of the error around a fault, the fault comes after its own cause. -/
theorem spread_around (depth : Nat) (e : Fault) :
    standard.spread (depth + 1) (around e) =
      around e :: (e.cause.toList.flatMap (standard.spread depth) ++ standard.spread depth e) := by
  have hinside : standard.inside (around e) = e.cause.toList ++ [e] := rfl
  rw [spread, hinside, List.flatMap_append, List.flatMap_singleton]

/-- A fault that carries a code and has a cause is an input or output error around another fault. -/
theorem exists_io_of_coded {e x : Fault} (hcause : e.cause = some x) (hcode : standard.codeOf e ≠ none) :
    ∃ kind payload, e = .io kind (some payload) ∧ kind.code ≠ none ∧ payload.cause = some x := by
  cases e with
  | io kind payload =>
    cases payload with
    | none => cases hcause
    | some payload => exact ⟨kind, payload, rfl, hcode, hcause⟩
  | rpc error => cases hcause
  | _ => exact absurd rfl hcode

/-- All that is inside a fault within the bounds is in its listing. -/
theorem reached_eq {f : Fault} {depth : Nat} (hdeep : c.endsWithin depth f = true) (hdepth : depth ≤ maxDepth)
    (hmany : (c.spread depth f).length ≤ maxVisited) : c.reached f = c.spread depth f := by
  rw [reached, spread_of_endsWithin hdeep hdepth, List.take_of_length_le hmany]

/-- The cause of a fault with all that is inside it. -/
def ofCause (c : Classifier) (depth : Nat) (f : Fault) : List Fault :=
  f.cause.toList.flatMap (c.spread depth)

theorem mem_inside_of_cause {f x : Fault} (h : f.cause = some x) : x ∈ c.inside f :=
  List.mem_append_left _ (by rw [h]; exact List.mem_singleton_self x)

/-- Behind a fault without a code its cause comes first. -/
theorem readOff_spread_of_codeless (depth : Nat) {f : Fault} (hcode : c.codeOf f = none) :
    ∃ rest, c.readOff (c.spread (depth + 1) f) = (c.readOff (c.ofCause depth f)).followedBy rest := by
  rw [spread, c.readOff_cons_of_codeless hcode, inside, List.flatMap_append, c.readOff_append]
  exact ⟨_, rfl⟩

/-- To go deeper than a fault goes finds nothing more in its cause. -/
theorem ofCause_of_endsWithin {depth : Nat} {f : Fault} (h : c.endsWithin (depth + 1) f = true) :
    c.ofCause (depth + 1) f = c.ofCause depth f := by
  refine List.flatMap_congr fun x hx => ?_
  have hinside : x ∈ c.inside f := List.mem_append_left _ hx
  exact spread_of_endsWithin (endsWithin_of_mem_inside h hinside) (Nat.le_succ depth)

/-- Nothing is read off a cause in which no code is reached. -/
theorem readOff_ofCause_eq_unclassified {depth : Nat} {f : Fault}
    (hdeep : c.endsWithin (depth + 1) f = true) (hdepth : depth ≤ maxDepth)
    (hmany : (c.ofCause depth f).length ≤ maxVisited)
    (hcodes : ∀ x, f.cause = some x → c.codes x = []) :
    c.readOff (c.ofCause depth f) = .unclassified := by
  cases hcause : f.cause with
  | none => rw [ofCause, hcause]; rfl
  | some x =>
    have heq : c.ofCause depth f = c.spread depth x := by
      rw [ofCause, hcause, Option.toList_some, List.flatMap_singleton]
    rw [heq] at hmany ⊢
    have hends := endsWithin_of_mem_inside hdeep (mem_inside_of_cause hcause)
    have hnone : (c.spread depth x).filterMap c.codeOf = [] :=
      reached_eq hends hdepth hmany ▸ hcodes x hcause
    exact c.readOff_of_codeless (List.filterMap_eq_nil_iff.mp hnone)

/-- An input or output error without a code around a fault is classified as the fault is, if all faults
inside are within the bounds and no coded input or output error gets behind the codes of its own payload's
cause. -/
theorem classify_around (e : Fault) (hdeep : standard.endsWithin 31 e = true)
    (hmany : (standard.spread maxDepth (around e)).length ≤ maxVisited)
    (hbehind : ∀ kind payload, e = .io kind (some payload) → kind.code ≠ none →
      ∀ x, payload.cause = some x → standard.codes x = []) :
    standard.classify (around e) = standard.classify e := by
  have hcodeless : standard.codeOf (around e) = none := rfl
  have hcause : standard.ofCause 31 e = standard.ofCause 30 e := ofCause_of_endsWithin hdeep
  have hlisting : standard.spread maxDepth (around e) =
      around e :: (standard.ofCause 30 e ++ standard.spread 31 e) := by
    rw [← hcause]
    exact spread_around 31 e
  have hreached : standard.reached (around e) = _ := (List.take_of_length_le hmany).trans hlisting
  rw [hlisting, List.length_cons, List.length_append] at hmany
  have hpayload : standard.reached e = standard.spread 31 e :=
    reached_eq hdeep (by decide) (by omega)
  rw [classify_standard, classify_standard, hreached, hpayload,
    standard.readOff_cons_of_codeless hcodeless, readOff_append]
  by_cases hcode : standard.codeOf e = none
  · -- the codes of the cause are met first on both sides, in front of the payload once more
    obtain ⟨rest, hrest⟩ := readOff_spread_of_codeless 30 hcode
    rw [show standard.readOff (standard.spread 31 e) = _ from hrest, Failure.followedBy_again]
  · have hnothing : standard.readOff (standard.ofCause 30 e) = .unclassified := by
      refine readOff_ofCause_eq_unclassified hdeep (by decide) (by omega) fun x hx => ?_
      obtain ⟨kind, payload, heq, hkind, hbelow⟩ := exists_io_of_coded hx hcode
      exact hbehind kind payload heq hkind x hbelow
    rw [hnothing, Failure.unclassified_followedBy]

/-- A failed call inside a text that tells what it was for, inside an input or output error. -/
def layered : Fault := .io .other (some (.wrapped "reading" (some (.driver (.rpc (.status .aborted "lost"))))))

theorem classify_around_of_layered :
    standard.endsWithin 31 layered = true ∧ (standard.spread maxDepth (around layered)).length ≤ maxVisited ∧
      standard.classify (around layered) = standard.classify layered ∧
      standard.classify layered = ⟨none, some .aborted⟩ := by
  have hdeep : standard.endsWithin 31 layered = true := by decide +kernel
  have hmany : (standard.spread maxDepth (around layered)).length ≤ maxVisited := by decide +kernel
  refine ⟨hdeep, hmany, classify_around layered hdeep hmany ?_, by decide +kernel⟩
  rintro kind payload heq hkind
  cases heq
  exact absurd rfl hkind

/-- A call to an unavailable server that timed out: nobody knows what became of it. -/
def timedOut : Fault := .io .timedOut (some (.driver (.rpc (.transport .unavailable "down"))))

/-- An input or output error around a doubt hides it: the code of the cause gets ahead of that of the fault
itself, and the call is taken for one that can be repeated. -/
theorem doubt_lost_of_wrapping :
    standard.endsWithin 31 timedOut = true ∧ (standard.spread maxDepth (around timedOut)).length ≤ maxVisited ∧
      standard.classify timedOut = ⟨some .deadlineExceeded, none⟩ ∧
      (standard.classify timedOut).failureClass = .undetermined ∧
      standard.classify (around timedOut) = ⟨some .unavailable, none⟩ ∧
      (standard.classify (around timedOut)).failureClass = .unavailable := by
  decide +kernel

end Classifier

end PooledSessions
