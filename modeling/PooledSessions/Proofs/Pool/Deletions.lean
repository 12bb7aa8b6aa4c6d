import PooledSessions.Proofs.Pool.Handover
import PooledSessions.Proofs.Pool.Runs
/-!
# Deletions and closings

Where deletions can be started in the background, every session that the server has named is tracked, or
its deletion is under way, or that deletion was resolved by an answer or the passing of its time limit, or
it was lost with the closing that waited for it.  A closing waits for its own deletions and for those in
the background, but not for those of another closing: what it leaves behind when it ends are the deletions
for which other closings still wait, and the lost ones.
-/

namespace PooledSessions

variable {ε α : Type}

/-- Whether a move resolves a deletion: the server answers it, or its time limit has passed. -/
def Move.resolves (m : Move ε α) (d : Deletion) : Bool :=
  match m with
  | .deleted no _ => d.no = no
  | .deletionExpired no => d.no = no
  | _ => false

namespace Engine

/-- Whether a move loses a deletion: the closing that waits for it is dropped. -/
def loses (e : Engine ε α) (m : Move ε α) (d : Deletion) : Bool :=
  match m with
  | .abandon no => (e.call? no).any (·.point = .deleting) && d.closer = some no
  | _ => false

/-- The deletions that end with a move are either resolved or lost. -/
theorem filter_endsWith (e : Engine ε α) (m : Move ε α) :
    e.deletions.filter (e.endsWith m) =
      e.deletions.filter m.resolves ++ e.deletions.filter (e.loses m) := by
  have hnever : ∀ ds : List Deletion, ds.filter (fun _ => false) = [] := by simp
  cases m with
  | deleted no result =>
    rw [show e.loses (.deleted no result) = fun _ => false from rfl, hnever, List.append_nil]
    rfl
  | deletionExpired no =>
    rw [show e.loses (.deletionExpired no) = fun _ => false from rfl, hnever, List.append_nil]
    rfl
  | abandon no =>
    rw [show (Move.abandon no : Move ε α).resolves = fun _ => false from rfl, hnever, List.nil_append]
    rfl
  | _ => exact (hnever _).trans (congrArg₂ (· ++ ·) (hnever e.deletions) (hnever e.deletions)).symm

variable [PooledError ε]

/-- The sessions whose deletions end in the moves of a run in the given way. -/
def endings (c : Setup) (ends : Engine ε α → Move ε α → Deletion → Bool) :
    Engine ε α → List (Bool × Move ε α) → List SessionId
  | _, [] => []
  | e, x :: xs =>
    (e.deletions.filter (ends e x.2)).map (·.id) ++
      match e.stepAt c x with
      | some e' => endings c ends e' xs
      | none => []

/-- The sessions whose deletions are resolved in a run. -/
def resolved (c : Setup) (e : Engine ε α) (xs : List (Bool × Move ε α)) : List SessionId :=
  endings c (fun _ m => m.resolves) e xs

/-- The sessions whose deletions are lost in a run. -/
def lost (c : Setup) (e : Engine ε α) (xs : List (Bool × Move ε α)) : List SessionId :=
  endings c loses e xs

variable {c : Setup} {e e' : Engine ε α} {known ids : List SessionId}

theorem resolved_cons {x : Bool × Move ε α} (hstep : e.stepAt c x = some e') (xs : List (Bool × Move ε α)) :
    resolved c e (x :: xs) = (e.deletions.filter x.2.resolves).map (·.id) ++ resolved c e' xs := by
  rw [resolved, endings, hstep, resolved]

theorem lost_cons {x : Bool × Move ε α} (hstep : e.stepAt c x = some e') (xs : List (Bool × Move ε α)) :
    lost c e (x :: xs) = (e.deletions.filter (e.loses x.2)).map (·.id) ++ lost c e' xs := by
  rw [lost, endings, hstep, lost]

/-- A pool that answers for the sessions `ids`, and has asked the server for each deletion under way. -/
structure Answers (c : Setup) (known ids : List SessionId) (e : Engine ε α) : Prop where
  /-- The pool is at rest. -/
  rest : e.ledger.AtRest c.limit known (some ids)
  /-- Deletions can be started. -/
  place : e.background = true
  /-- A closing with deletions of its own waits for them. -/
  owned : e.Owned
  /-- The server was asked for each deletion. -/
  begun : ∀ d ∈ e.deletions, Signal.deleteBegun d.no d.id ∈ e.signals

omit [PooledError ε] in
theorem answers_fresh (c : Setup) (g : Generator) : (fresh g : Engine ε α).Answers c [] [] where
  rest := Ledger.Sound.account (atRest_fresh c.limit g) fun ids hids => by
    cases hids
    exact .rfl List.nodup_nil (List.Subset.refl _)
  place := rfl
  owned := fun d hd => by cases hd
  begun := fun d hd => by cases hd

omit [PooledError ε] in
/-- The sessions that a pool answers for go on being answered for, but for those whose deletions end. -/
theorem Answers.perm (h : e.Answers c known ids) (m : Move ε α) :
    (m.named?.toList ++ ids).Perm (e.keptAfter m ids ++
      ((e.deletions.filter m.resolves).map (·.id) ++ (e.deletions.filter (e.loses m)).map (·.id))) := by
  have haccounts := h.rest.accounts ids rfl
  have hids : (e.deletions.map (·.id)).Nodup := (List.nodup_append.mp haccounts.sessions_nodup).2.1
  -- each session whose deletion ends is among those that were answered for, once
  have hended : (ids.filter fun id => e.deletions.any fun d => e.endsWith m d && d.id = id).Perm
      ((e.deletions.filter (e.endsWith m)).map (·.id)) := by
    refine (List.perm_ext_iff_of_nodup (haccounts.nodup.filter _)
      (hids.sublist (List.filter_sublist.map _))).mpr fun id => ?_
    simp only [List.mem_filter, List.any_eq_true, Bool.and_eq_true, decide_eq_true_eq, List.mem_map]
    constructor
    · rintro ⟨-, d, hd, hends, rfl⟩
      exact ⟨d, ⟨hd, hends⟩, rfl⟩
    · rintro ⟨d, ⟨hd, hends⟩, rfl⟩
      exact ⟨haccounts.subperm.subset (List.mem_append_right _ (List.mem_map_of_mem hd)),
        d, hd, hends, rfl⟩
  rw [← List.map_append, ← filter_endsWith, keptAfter, List.append_assoc]
  refine List.Perm.append_left _ ?_
  refine List.Perm.trans ?_ (List.Perm.append_left _ hended)
  exact (List.filter_append_perm (fun id => e.deletions.any fun d => e.endsWith m d && d.id = id)
    ids).symm.trans List.perm_append_comm

/-- A pool goes on answering for its sessions with every move, and takes back nothing that it told. -/
theorem Answers.step (h : e.Answers c known ids) {m : Move ε α} (hstep : e.step c m = some e')
    (hnew : ∀ id ∈ m.named?, id ∉ known) :
    e'.Answers c (m.named?.toList ++ known) (e.keptAfter m ids) ∧ e.signals ⊆ e'.signals := by
  have hleads := (leadsTo_of_step hstep).descends
  refine ⟨⟨atRest_step h.rest hstep hnew, (background_of_step hstep).trans h.place, owned_of_step h.owned h.rest.calls_nodup hstep, ?_⟩,
    hleads.signals⟩
  intro d hd
  exact (hleads.deletions d hd).elim (fun hold => hleads.signals (h.begun d hold)) id

/-- After a run in which deletions could always be started, each session that was answered for or named
since is still answered for, or its deletion was resolved, or it was lost; and the server was asked for
each deletion. -/
theorem Answers.run (h : e.Answers c known ids) {xs : List (Bool × Move ε α)}
    (hrun : e.run c xs = some e') (hplace : ∀ x ∈ xs, x.1 = true) (hnames : (named xs).Nodup)
    (hnew : ∀ id ∈ named xs, id ∉ known) :
    ∃ known' ids', e'.Answers c known' ids' ∧ e.signals ⊆ e'.signals ∧
      (named xs ++ ids).Perm (ids' ++ (resolved c e xs ++ lost c e xs)) ∧
      ∀ id ∈ resolved c e xs ++ lost c e xs, ∃ no, Signal.deleteBegun no id ∈ e'.signals := by
  induction xs generalizing e known ids with
  | nil =>
    cases hrun
    exact ⟨known, ids, h, List.Subset.refl _, by simp [named, resolved, lost, endings],
      by simp [resolved, lost, endings]⟩
  | cons x xs ih =>
    obtain ⟨e₁, hstep, hrest⟩ := Option.bind_eq_some_iff.mp hrun
    obtain ⟨hfirst, hnames', hlater⟩ := new_of_named_cons hnames hnew
    -- the move is made in a place where deletions can be started, as the one before it was
    have hsame : ({ e with background := x.1 } : Engine ε α) = e := by
      rw [hplace x List.mem_cons_self, ← h.place]
    have hmove : e.step c x.2 = some e₁ := by
      rw [stepAt, hsame] at hstep
      exact hstep
    obtain ⟨h₁, hsignals₁⟩ := h.step hmove hfirst
    obtain ⟨known', ids', h', hsignals, hperm, hbegun⟩ := ih h₁ hrest
      (fun y hy => hplace y (List.mem_cons_of_mem _ hy)) hnames' hlater
    rw [named_cons, resolved_cons hstep, lost_cons hstep]
    refine ⟨known', ids', h', List.Subset.trans hsignals₁ hsignals, ?_, fun id hid => ?_⟩
    · refine List.perm_iff_count.mpr fun id => ?_
      have hmoved := (h.perm x.2).count_eq id
      have hlater := hperm.count_eq id
      simp only [List.count_append] at hmoved hlater ⊢
      omega
    · have hended : ∀ ends : Deletion → Bool, id ∈ (e.deletions.filter ends).map (·.id) →
          ∃ no, Signal.deleteBegun no id ∈ e'.signals := by
        intro ends hin
        obtain ⟨d, hd, rfl⟩ := List.mem_map.mp hin
        exact ⟨d.no, hsignals (hsignals₁ (h.begun d (List.mem_of_mem_filter hd)))⟩
      simp only [List.mem_append] at hid hbegun
      rcases hid with (hid | hid) | hid | hid
      · exact hended _ hid
      · exact hbegun id (Or.inl hid)
      · exact hended _ hid
      · exact hbegun id (Or.inr hid)

/-! ## The end of a closing -/

omit [PooledError ε] in
/-- Whether the end of a closing has been told. -/
def hasEnded (e : Engine ε α) (no : TaskNo) : Bool :=
  e.signals.any fun s =>
    match s with
    | .closed k => k = no
    | _ => false

omit [PooledError ε] in
theorem hasEnded_iff {no : TaskNo} : e.hasEnded no = true ↔ Signal.closed no ∈ e.signals := by
  rw [hasEnded, List.any_eq_true]
  constructor
  · rintro ⟨s, hs, hclosed⟩
    cases s with
    | closed k =>
      rw [decide_eq_true_eq] at hclosed
      exact hclosed ▸ hs
    | _ => cases hclosed
  · intro hs
    exact ⟨_, hs, decide_eq_true rfl⟩

/-- When a closing ends, each deletion under way is one that another closing waits for. -/
theorem others_of_ended {m : Move ε α} {no : TaskNo} (hnd : (e.calls.map (·.no)).Nodup)
    (howned : e.Owned) (hstep : e.step c m = some e') (hbefore : e.hasEnded no = false)
    (hended : e'.hasEnded no = true) :
    e.pool.pending = 0 ∧ e'.pool = e.pool ∧ (∃ call ∈ e.calls, call.point.closes = true) ∧
      ∀ d ∈ e'.deletions, ∃ k ∈ e'.calls, k.no ≠ no ∧ d.closer = some k.no ∧ k.point = .deleting := by
  have hbefore : Signal.closed no ∉ e.signals := fun hin => by
    rw [hasEnded_iff.mpr hin] at hbefore
    cases hbefore
  have hclosed := hasEnded_iff.mp hended
  rcases onward_step hstep with honward | ⟨call, hcall, rfl, hcloses, hown, hpending, hnone, rfl⟩
  · -- only the last move of a closing tells that it has ended
    obtain ⟨told, heq, htold⟩ := honward.told
    rw [heq] at hclosed
    rcases List.mem_append.mp hclosed with hin | hin
    · exact absurd hin hbefore
    · exact absurd (htold _ hin) id
  · have hno : no = call.no := by
      rcases List.mem_append.mp hclosed with hin | hin
      · exact absurd hin hbefore
      · cases List.mem_singleton.mp hin
        rfl
    subst hno
    have hin := (mem_of_call? hcall).1
    refine ⟨hpending, rfl, ⟨call, hin, hcloses⟩, fun d hd => ?_⟩
    have hsome : d.closer ≠ none := by simpa using List.any_eq_false.mp hnone d hd
    obtain ⟨no, hno⟩ := Option.ne_none_iff_exists'.mp hsome
    obtain ⟨k, hk, rfl, hpoint⟩ := howned d hd no hno
    -- were it the closing's own, the closing would still wait for it
    have hother : k.no ≠ call.no := by
      intro hsame
      rw [List.inj_on_of_nodup_map hnd hk hin hsame] at hpoint hno
      exact absurd hno (by simpa using List.any_eq_false.mp (hown hpoint) d hd)
    exact ⟨k, List.mem_filter.mpr ⟨hk, by simpa using hother⟩, hother, hno, hpoint⟩

/-- When a closing ends, in a run in which deletions could always be started and the server named no session
twice, the pool tracks no session and has no creation in flight; the server was asked to delete each session
that it has named.  Each of these deletions was resolved, or is one that another closing still waits for, or
was lost with a closing that was dropped.  So if no deletion was lost and no other closing waits for deletions
of its own, all of them have been resolved. -/
theorem deletions_resolved_of_closed (c : Setup) (g : Generator) (xs : List (Bool × Move ε α))
    (x : Bool × Move ε α) (e e' : Engine ε α) (no : TaskNo) (hplace : ∀ y ∈ xs ++ [x], y.1 = true)
    (hnames : (named (xs ++ [x])).Nodup) (hrun : (fresh g).run c xs = some e)
    (hstep : e.stepAt c x = some e') (hbefore : e.hasEnded no = false)
    (hended : e'.hasEnded no = true) :
    e'.pool.active = [] ∧ e'.pool.pending = 0 ∧
      (∀ id ∈ named (xs ++ [x]), ∃ deletion, Signal.deleteBegun deletion id ∈ e'.signals) ∧
      (named (xs ++ [x])).Perm (e'.deletions.map (·.id) ++
        (resolved c (fresh g) (xs ++ [x]) ++ lost c (fresh g) (xs ++ [x]))) ∧
      (∀ d ∈ e'.deletions, ∃ k ∈ e'.calls, k.no ≠ no ∧ d.closer = some k.no ∧ k.point = .deleting) ∧
      (lost c (fresh g) (xs ++ [x]) = [] → (∀ k ∈ e'.calls, k.point ≠ .deleting) →
        e'.deletions = [] ∧ (named (xs ++ [x])).Perm (resolved c (fresh g) (xs ++ [x]))) := by
  have hwhole : (fresh g).run c (xs ++ [x]) = some e' := by
    rw [run_append, hrun, Option.bind_some, run, hstep]
    rfl
  obtain ⟨known, ids, h, -⟩ := (answers_fresh c g).run hrun
    (fun y hy => hplace y (List.mem_append_left _ hy))
    (List.nodup_append.mp (named_append xs [x] ▸ hnames)).1 (by simp)
  obtain ⟨known', ids', h', -, hperm, hbegun⟩ := (answers_fresh c g).run hwhole hplace hnames (by simp)
  obtain ⟨hpending, hpool, ⟨call, hcall, hcloses⟩, hothers⟩ := others_of_ended
    (e := { e with background := x.1 }) h.rest.calls_nodup h.owned hstep hbefore hended
  have hshut : e.pool.closed = true := h.rest.closed call hcall hcloses
  have hempty : e'.pool.active = [] := by
    rw [hpool]
    exact (h.rest.tables.shut hshut).2
  -- the pool answers only for the sessions of the deletions under way
  have hids : (e'.deletions.map (·.id)).Perm ids' := by
    have haccounts := (h'.rest.accounts ids' rfl).perm h'.place
    rwa [Ledger.sessions, show e'.ledger.pool.names = [] from by
      rw [Pool.names, show e'.ledger.pool.active = [] from hempty]; rfl, List.nil_append] at haccounts
  rw [List.append_nil] at hperm
  have hconserved := hperm.trans (hids.symm.append_right _)
  refine ⟨hempty, hpool ▸ hpending, fun id hid => ?_, hconserved, hothers, fun hlost hnobody => ?_⟩
  · rcases List.mem_append.mp (hconserved.mem_iff.mp hid) with hin | hin
    · obtain ⟨d, hd, rfl⟩ := List.mem_map.mp hin
      exact ⟨d.no, h'.begun d hd⟩
    · exact hbegun id hin
  · have hnone : e'.deletions = [] := List.eq_nil_iff_forall_not_mem.mpr fun d hd => by
      obtain ⟨k, hk, -, -, hpoint⟩ := hothers d hd
      exact hnobody k hk hpoint
    refine ⟨hnone, ?_⟩
    rwa [hnone, hlost, List.append_nil] at hconserved

/-- A session is leased and returned, and the pool is closed twice at once.  The first closing deletes the
session. -/
def closedTwice : List (Bool × Move DriverError Int) :=
  [(true, .call .lease (.unnamed 0)), (true, .start 0), (true, .created 0 (.ok ⟨⟨"a"⟩, 1⟩)),
    (true, .release 1), (true, .call .closing (.unnamed 1)), (true, .call .closing (.unnamed 2)),
    (true, .start 2), (true, .start 3)]

/-- The deletion is answered, and the first closing ends. -/
def closedOnce : List (Bool × Move DriverError Int) :=
  closedTwice ++ [(true, .deleted 4 (.ok ())), (true, .proceed 2)]

/-- When the second closing ends as well, the deletion has been resolved. -/
theorem deletions_resolved_of_closedOnce :
    ∃ e e', (fresh ⟨1⟩).run (.ofConfig {} .standard none) closedOnce = some e ∧
      e.stepAt (.ofConfig {} .standard none) (true, .proceed 3) = some e' ∧
      e.hasEnded 3 = false ∧ e'.hasEnded 3 = true ∧ e'.deletions = [] ∧
      [⟨"a"⟩].Perm (resolved (.ofConfig {} .standard none) (fresh ⟨1⟩)
        (closedOnce ++ [(true, .proceed 3)])) := by
  obtain ⟨e, e', hrun, hstep, hbefore, hended, hcalls⟩ :
      ∃ e e', (fresh ⟨1⟩).run (.ofConfig {} .standard none) closedOnce = some e ∧
        e.stepAt (.ofConfig {} .standard none) (true, .proceed 3) = some e' ∧
        e.hasEnded 3 = false ∧ e'.hasEnded 3 = true ∧ e'.calls = [] := ⟨_, _, rfl, rfl, rfl, rfl, rfl⟩
  refine ⟨e, e', hrun, hstep, hbefore, hended, ?_⟩
  exact (deletions_resolved_of_closed (.ofConfig {} .standard none) ⟨1⟩ closedOnce (true, .proceed 3) e e'
    3 (by decide) (by decide) hrun hstep hbefore hended).2.2.2.2.2 rfl (by simp [hcalls])

/-- The second closing does not wait for the deletion that the first one has started: it ends while the
deletion is under way.  If then the first closing is dropped, the deletion is lost with it. -/
theorem deletion_underWay_of_closedTwice :
    ∃ e e', (fresh ⟨1⟩).run (.ofConfig {} .standard none) (closedTwice ++ [(true, .proceed 3)]) = some e ∧
      e.hasEnded 3 = true ∧ e.deletions.map (·.id) = [⟨"a"⟩] ∧
      resolved (.ofConfig {} .standard none) (fresh ⟨1⟩) (closedTwice ++ [(true, .proceed 3)]) = [] ∧
      e.stepAt (.ofConfig {} .standard none) (true, .abandon 2) = some e' ∧ e'.deletions = [] ∧
      lost (.ofConfig {} .standard none) (fresh ⟨1⟩)
        (closedTwice ++ [(true, .proceed 3), (true, .abandon 2)]) = [⟨"a"⟩] :=
  ⟨_, _, rfl, rfl, rfl, rfl, rfl, rfl, rfl⟩

end Engine

end PooledSessions
