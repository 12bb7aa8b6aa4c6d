import PooledSessions.Proofs.Classifier.Codes
/-!
# The walk as a listing

A classifier finds what can be read off the listing of a fault (`Classifier.reached`): the first transport
code in it, and the first status code among the faults that stand in front of that (`Classifier.inFront`).
If an adapter crashes on one of these, nothing is found (`Classifier.classify_eq_listing`).

The walk looks at no other faults (`Classifier.lookedAt`).  What the adapters would say about the others
has no influence.
-/

namespace PooledSessions

namespace Classifier

variable (c : Classifier)

/-! ## Reading a listing -/

/-- The transport code that a fault itself carries. -/
def transportOf (f : Fault) : Option TransportCode :=
  match c.codeOf f with
  | some (.transport code) => some code
  | _ => none

/-- The status code that a fault itself carries. -/
def statusOf (f : Fault) : Option StatusCode :=
  match c.codeOf f with
  | some (.status code) => some code
  | _ => none

/-- The faults that stand in front of the first one with a transport code. -/
def inFront (faults : List Fault) : List Fault := faults.takeWhile fun f => (c.transportOf f).isNone

/-- What a listing says if no adapter crashes: its first transport code, and the first status code in
front of that. -/
def readOff (faults : List Fault) : Failure :=
  ⟨faults.findSome? c.transportOf, (c.inFront faults).findSome? c.statusOf⟩

/-- Whether an adapter crashes on a fault. -/
def crashesOn (f : Fault) : Bool := (c.inspect f).isNone

variable {c} {f : Fault} {i : Inspection}

theorem codeOf_of_inspect (h : c.inspect f = some i) : c.codeOf f = i.code := by
  rw [codeOf, h]
  rfl

/-- Adapters that all pass over a fault learn nothing about it. -/
theorem inspectWith_of_passes {adapters : List Adapter} (hpasses : ∀ a ∈ adapters, a f = .passes) :
    inspectWith adapters f = some .blank := by
  induction adapters with
  | nil => rfl
  | cons a adapters ih =>
    rw [List.forall_mem_cons] at hpasses
    rw [inspectWith, hpasses.1]
    exact ih hpasses.2

theorem inFront_cons_of_none (h : c.transportOf f = none) (faults : List Fault) :
    c.inFront (f :: faults) = f :: c.inFront faults := by
  rw [inFront, List.takeWhile_cons_of_pos (by rw [h]; rfl)]
  rfl

theorem inFront_cons_of_some {code : TransportCode} (h : c.transportOf f = some code)
    (faults : List Fault) : c.inFront (f :: faults) = [] := by
  rw [inFront, List.takeWhile_cons_of_neg (by rw [h]; exact Bool.false_ne_true)]

/-- A fault without a transport code is read over, except for its status code. -/
theorem readOff_cons_of_none (h : c.transportOf f = none) (faults : List Fault) :
    c.readOff (f :: faults) =
      { c.readOff faults with status := c.statusOf f <|> (c.readOff faults).status } := by
  rw [readOff, inFront_cons_of_none h, List.findSome?_cons, h, List.findSome?_cons]
  unfold readOff
  cases c.statusOf f <;> rfl

theorem readOff_cons_of_some {code : TransportCode} (h : c.transportOf f = some code)
    (faults : List Fault) : c.readOff (f :: faults) = ⟨some code, none⟩ := by
  rw [readOff, inFront_cons_of_some h, List.findSome?_cons, h]
  rfl

/-- Looking at faults one after another answers what can be read off them, unless an adapter crashes in
front of the first transport code. -/
theorem scan_eq (faults : List Fault) (status : Option StatusCode) :
    c.scan faults status =
      if (c.inFront faults).any c.crashesOn then none
      else some { c.readOff faults with status := status <|> (c.readOff faults).status } := by
  -- the status that was found first is kept, so the statement is about any status to begin with
  induction faults generalizing status with
  | nil => cases status <;> rfl
  | cons f faults ih =>
    rw [scan]
    cases hinspect : c.inspect f with
    | none =>
      have hcode : c.codeOf f = none := by rw [codeOf, hinspect]; rfl
      have htransport : c.transportOf f = none := by rw [transportOf, hcode]
      have hcrash : c.crashesOn f = true := by rw [crashesOn, hinspect]; rfl
      rw [inFront_cons_of_none htransport, List.any_cons, hcrash, Bool.true_or, if_pos rfl]
    | some i =>
      have hcode := codeOf_of_inspect hinspect
      have hcrash : c.crashesOn f = false := by rw [crashesOn, hinspect]; rfl
      dsimp only
      cases hcarried : i.code with
      | none =>
        have htransport : c.transportOf f = none := by rw [transportOf, hcode, hcarried]
        have hstatus : c.statusOf f = none := by rw [statusOf, hcode, hcarried]
        dsimp only
        rw [ih, inFront_cons_of_none htransport, readOff_cons_of_none htransport, hstatus, List.any_cons,
          hcrash, Bool.false_or]
        rfl
      | some code =>
        cases code with
        | transport code =>
          have htransport : c.transportOf f = some code := by rw [transportOf, hcode, hcarried]
          rw [inFront_cons_of_some htransport, readOff_cons_of_some htransport]
          cases status <;> rfl
        | status code =>
          have htransport : c.transportOf f = none := by rw [transportOf, hcode, hcarried]
          have hstatus : c.statusOf f = some code := by rw [statusOf, hcode, hcarried]
          dsimp only
          rw [ih, inFront_cons_of_none htransport, readOff_cons_of_none htransport, hstatus, List.any_cons,
            hcrash, Bool.false_or]
          cases status <;> rfl

/-! ## What is looked at -/

variable (c)

/-- The faults at which the walk looks, in order. -/
def lookedAt : Nat → List (Fault × Nat) → List Fault
  | 0, _ => []
  | _ + 1, [] => []
  | n + 1, (f, depth) :: waiting =>
    f :: match c.inspect f with
      | none => []
      | some i =>
        match i.code with
        | some (.transport _) => []
        | _ => lookedAt n (openings f i depth ++ waiting)

/-- The faults at which a classification looks, in order. -/
def inspected (f : Fault) : List Fault := c.lookedAt maxVisited [(f, 0)]

/-- The walk looks at the faults in the order of their listing, and leaves none out. -/
theorem lookedAt_prefix (n : Nat) (waiting : List (Fault × Nat)) :
    c.lookedAt n waiting <+: (c.line waiting).take n := by
  induction n generalizing waiting with
  | zero => exact List.nil_prefix
  | succ n ih =>
    cases waiting with
    | nil => exact List.nil_prefix
    | cons x waiting =>
      obtain ⟨f, depth⟩ := x
      rw [lookedAt]
      cases hinspect : c.inspect f with
      | none =>
        obtain ⟨rest, hline⟩ := c.exists_line_cons f depth waiting
        rw [hline, List.take_succ_cons]
        exact ⟨rest.take n, rfl⟩
      | some i =>
        rw [c.line_cons hinspect, List.take_succ_cons, List.prefix_cons_inj]
        dsimp only
        split
        · exact List.nil_prefix
        · exact ih _

/-- Adapters that agree on the faults at which the walk looks lead to the same codes. -/
theorem walk_congr {c c' : Classifier} (n : Nat) (waiting : List (Fault × Nat))
    (status : Option StatusCode) (h : ∀ f ∈ c.lookedAt n waiting, c'.inspect f = c.inspect f) :
    c'.walk n waiting status = c.walk n waiting status := by
  induction n generalizing waiting status with
  | zero => cases waiting <;> rfl
  | succ n ih =>
    cases waiting with
    | nil => rfl
    | cons x waiting =>
      obtain ⟨f, depth⟩ := x
      rw [lookedAt, List.forall_mem_cons] at h
      obtain ⟨hhead, hrest⟩ := h
      rw [walk, walk, hhead]
      cases hinspect : c.inspect f with
      | none => rfl
      | some i =>
        rw [hinspect] at hrest
        dsimp only at hrest ⊢
        cases hcarried : i.code with
        | none =>
          rw [hcarried] at hrest
          exact ih _ _ hrest
        | some code =>
          rw [hcarried] at hrest
          cases code with
          | transport code => rfl
          | status code => exact ih _ _ hrest

/-! ## Classification -/

theorem inspected_prefix (f : Fault) : c.inspected f <+: c.reached f := by
  have hline : c.line [(f, 0)] = c.spread maxDepth f := List.append_nil _
  have hprefix := c.lookedAt_prefix maxVisited [(f, 0)]
  rwa [hline] at hprefix

/-- A classification reads its codes off the listing of the fault, unless an adapter crashes in front of
the first transport code.  It looks at no more than 256 faults, in the order of the listing, and nothing
that adapters say about others can change it. -/
theorem classify_eq_listing (c : Classifier) (f : Fault) :
    (c.classify f =
      if (c.inFront (c.reached f)).any c.crashesOn then .unclassified
      else ⟨(c.reached f).findSome? c.transportOf, (c.inFront (c.reached f)).findSome? c.statusOf⟩) ∧
    c.inspected f <+: c.reached f ∧ (c.inspected f).length ≤ 256 ∧
    ∀ c' : Classifier, (∀ x ∈ c.inspected f, c'.inspect x = c.inspect x) →
      c'.classify f = c.classify f := by
  refine ⟨?_, c.inspected_prefix f, ?_, ?_⟩
  · rw [classify, findCodes_eq_scan, scan_eq]
    split <;> rfl
  · exact (c.inspected_prefix f).length_le.trans (List.length_take_le _ _)
  · intro c' hagree
    rw [classify, classify, findCodes, findCodes, walk_congr maxVisited [(f, 0)] none hagree]

end Classifier

end PooledSessions
