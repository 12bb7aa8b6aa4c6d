import PooledSessions.Proofs.Pool.Runs
import PooledSessions.Proofs.Pool.Watches
/-!
# The vigil of a monitor

A monitor attaches to its session once, takes in what the server tells it, in order, and takes its session for
dead at the first tiding that gives a reason for it (`Tiding.reason?`).  Then it marks the flag, gives notice
if the flag was alive, and ends.  It may be stopped before.

What a monitor is told in a run, and who is found dead there, is read off the moves (`Engine.tidings`,
`Engine.obituaries`).  A vigil relates both to what the server had to tell (`Script`) and to the flag of the
monitor (`Engine.Vigil`); it is kept by every move of the pool, whoever makes it.
-/

namespace PooledSessions

variable {ε α : Type}

/-! ## Flags that are marked by many -/

namespace Flags

/-- Marks flags dead one after another.  Whoever marks one sees whether it was alive until then. -/
def markAll (fs : Flags) : List FlagNo → List (FlagNo × Bool) × Flags
  | [] => ([], fs)
  | n :: ns =>
    let (seen, fs) := fs.markDead n
    let (rest, fs) := fs.markAll ns
    ((n, seen) :: rest, fs)

theorem isAlive_markAll (fs : Flags) (ns : List FlagNo) (k : FlagNo) :
    (fs.markAll ns).2.isAlive k = (fs.isAlive k && !ns.contains k) := by
  induction ns generalizing fs with
  | nil => simp [markAll]
  | cons n ns ih =>
    rw [markAll]
    dsimp only
    rw [ih, isAlive_markDead, List.contains_cons, Bool.not_or, Bool.and_assoc]
    rfl

/-- However many mark a flag dead, one of them sees the transition, if the flag was alive. -/
theorem count_markAll (fs : Flags) (ns : List FlagNo) (k : FlagNo) :
    (fs.markAll ns).1.count (k, true) = if fs.isAlive k = true ∧ k ∈ ns then 1 else 0 := by
  induction ns generalizing fs with
  | nil => simp [markAll]
  | cons n ns ih =>
    rw [markAll]
    dsimp only
    rw [List.count_cons, ih, isAlive_markDead, markDead_fst]
    by_cases hn : k = n
    · subst hn
      cases fs.isAlive k <;> simp
    · have hne : ((n, fs.isAlive n) == (k, true)) = false := by simp [Ne.symm hn]
      simp [hn, hne]

end Flags

/-! ## What the server tells -/

/-- What a server has to tell a monitor: how it answers the attaching, the messages that it sends then, and
whether it ends the stream after them. -/
structure Script where
  /-- The answer to the attaching. -/
  result : Except RpcError Nat
  /-- The messages. -/
  messages : List (Except RpcError SessionStatus)
  /-- Whether the stream ends. -/
  ends : Bool

namespace Script

/-- All that there is to tell, in order. -/
def tidings (s : Script) : List Tiding :=
  .attached s.result :: (s.messages.map .heard ++ if s.ends then [.ended] else [])

/-- Whether there is nothing wrong: the attaching succeeds, every message says that the session is ready, and
the stream does not end. -/
def IsHealthy (s : Script) : Prop :=
  (∃ stream, s.result = .ok stream) ∧ (∀ message ∈ s.messages, message = .ok .ready) ∧ s.ends = false

end Script

namespace Tiding

/-- The move in which a monitor is told this. -/
def move (no : TaskNo) : Tiding → Move ε α
  | .attached result => .attached no result
  | .heard message => .heard no message
  | .ended => .streamEnded no

/-- The reason for which a monitor that is told all this takes its session for dead: the first one. -/
def cause? (xs : List Tiding) : Option String := xs.findSome? reason?

/-- What a monitor takes in of what there is to tell: nothing after the first tiding that gives a reason to
take the session for dead. -/
def heeded : List Tiding → List Tiding
  | [] => []
  | x :: xs => x :: if x.reason?.isSome then [] else heeded xs

@[simp] theorem told?_move (no : TaskNo) (x : Tiding) : (x.move no : Move ε α).told? = some (no, x) := by
  cases x <;> rfl

theorem eq_move_of_told? {m : Move ε α} {no : TaskNo} {x : Tiding} (h : m.told? = some (no, x)) :
    m = x.move no := by
  cases m <;> cases h <;> rfl

theorem move_inj {no : TaskNo} {x y : Tiding} (h : (x.move no : Move ε α) = y.move no) : x = y := by
  have htold := congrArg Move.told? h
  simpa using htold

@[simp] theorem cause?_concat (xs : List Tiding) (x : Tiding) :
    cause? (xs ++ [x]) = (cause? xs).or x.reason? := by
  rw [cause?, List.findSome?_append]
  cases hx : x.reason? <;> simp [cause?, hx]

/-- A monitor that has no reason yet takes in the next tiding. -/
theorem heeded_append {xs : List Tiding} (h : cause? xs = none) (ys : List Tiding) :
    heeded (xs ++ ys) = xs ++ heeded ys := by
  induction xs with
  | nil => rfl
  | cons x xs ih =>
    rw [cause?, List.findSome?_cons] at h
    cases hx : x.reason? with
    | some reason =>
      rw [hx] at h
      cases h
    | none =>
      rw [hx] at h
      simp only [List.cons_append, heeded, hx, Option.isSome_none, ih h]
      rfl

theorem cause?_heeded (xs : List Tiding) : cause? (heeded xs) = cause? xs := by
  induction xs with
  | nil => rfl
  | cons x xs ih =>
    rw [cause?, cause?, heeded, List.findSome?_cons, List.findSome?_cons]
    cases hx : x.reason? with
    | some reason => rfl
    | none => exact ih

theorem reason?_attached_eq_none {result : Except RpcError Nat} :
    (attached result).reason? = none ↔ ∃ stream, result = .ok stream := by
  cases result <;> simp [reason?]

theorem reason?_heard_eq_none {message : Except RpcError SessionStatus} :
    (heard message).reason? = none ↔ message = .ok .ready := by
  rcases message with error | status
  · simp [reason?]
  · cases status <;> simp [reason?]

/-- There is a reason to take the session for dead unless nothing is wrong. -/
theorem cause?_tidings_eq_none (s : Script) : cause? s.tidings = none ↔ s.IsHealthy := by
  have hended : (if s.ends then [Tiding.ended] else []).findSome? reason? = none ↔ s.ends = false := by
    cases s.ends <;> simp [reason?]
  rw [cause?, Script.tidings, List.findSome?_cons, Script.IsHealthy, ← reason?_attached_eq_none]
  cases (attached s.result).reason? with
  | some reason => simp
  | none =>
    simp only [true_and, List.findSome?_append, Option.or_eq_none_iff, hended, List.findSome?_map,
      List.findSome?_eq_none_iff, Function.comp, reason?_heard_eq_none]

/-- What comes next for a monitor that waits to attach, or listens and has not heard the end. -/
theorem exists_script_concat {watch : Watch} {xs : List Tiding} {x : Tiding}
    (hxs : if watch = .attaching then xs = [] else ∃ result messages, xs = Script.tidings ⟨result, messages, false⟩)
    (hfirst : watch = .attaching ↔ ∃ result, x = .attached result) :
    ∃ s : Script, xs ++ [x] = s.tidings ∧ (x ≠ .ended → s.ends = false) := by
  cases x with
  | attached result =>
    rw [if_pos (hfirst.mpr ⟨result, rfl⟩)] at hxs
    subst hxs
    exact ⟨⟨result, [], false⟩, rfl, fun _ => rfl⟩
  | heard message =>
    rw [if_neg (by simp [hfirst])] at hxs
    obtain ⟨result, messages, rfl⟩ := hxs
    exact ⟨⟨result, messages ++ [message], false⟩, by simp [Script.tidings], fun _ => rfl⟩
  | ended =>
    rw [if_neg (by simp [hfirst])] at hxs
    obtain ⟨result, messages, rfl⟩ := hxs
    exact ⟨⟨result, messages, true⟩, by simp [Script.tidings], fun hne => absurd rfl hne⟩

end Tiding

open Tiding

/-- What a monitor is told in a move. -/
def Move.tiding? (no : TaskNo) (m : Move ε α) : Option Tiding :=
  m.told?.bind fun x => if x.1 = no then some x.2 else none

@[simp] theorem Move.tiding?_move (no : TaskNo) (x : Tiding) : (x.move no : Move ε α).tiding? no = some x := by
  rw [tiding?, told?_move, Option.bind_some, if_pos rfl]

theorem Move.tiding?_eq_none {m : Move ε α} {no : TaskNo} (h : ∀ x, m.told? ≠ some (no, x)) :
    m.tiding? no = none := by
  cases htold : m.told? with
  | none => rw [tiding?, htold]; rfl
  | some x =>
    have hne : x.1 ≠ no := fun he => h x.2 (htold.trans (congrArg (fun n => some (n, x.2)) he))
    rw [tiding?, htold, Option.bind_some, if_neg hne]

namespace Engine

/-- What a monitor is told in a run. -/
def tidings (no : TaskNo) (xs : List (Bool × Move ε α)) : List Tiding := xs.filterMap (·.2.tiding? no)

theorem tidings_cons (no : TaskNo) (x : Bool × Move ε α) (xs : List (Bool × Move ε α)) :
    tidings no (x :: xs) = (x.2.tiding? no).toList ++ tidings no xs := by
  cases hx : x.2.tiding? no <;> simp [tidings, hx]

/-! ## Obituaries -/

/-- A session that was found dead while its flag was alive. -/
structure Obituary where
  /-- The monitor, and the flag. -/
  no : TaskNo
  /-- The session. -/
  id : SessionId
  /-- Why the session was taken for dead. -/
  reason : String

/-- The notice that is given. -/
def Obituary.notice (o : Obituary) : Event := deathNotice o.id o.reason

/-- The session that is found dead in a move while its flag is alive. -/
def obituary? (e : Engine ε α) (m : Move ε α) : Option Obituary := do
  let (no, x) ← m.told?
  let k ← e.monitor? no
  let reason ← x.reason?
  if e.isAlive no then some ⟨no, k.id, reason⟩ else none

/-! ## Monitors in order -/

/-- No two monitors and no two sessions share a name, and the numbers of the monitors were given away
before. -/
structure Monitored (e : Engine ε α) : Prop where
  /-- No session is listed twice. -/
  names : (e.pool.active.map (·.1)).Nodup
  /-- No two monitors share a number. -/
  numbers : (e.monitors.map (·.no)).Nodup
  /-- The numbers were given away before. -/
  no_lt : ∀ k ∈ e.monitors, k.no < e.nextNo

variable {c : Setup} {b e e' : Engine ε α} {m : Move ε α} {no : TaskNo} {k : Monitor}

theorem monitored_fresh (g : Generator) : (fresh g : Engine ε α).Monitored :=
  ⟨List.nodup_nil, List.nodup_nil, by simp [fresh]⟩

theorem Monitored.monitor? (h : e.Monitored) (hk : k ∈ e.monitors) : e.monitor? k.no = some k :=
  monitor?_of_mem h.numbers hk

/-- A monitor that is left is as it was. -/
theorem Monitored.monitor?_of_sublist (h : b.Monitored) (hsub : e.monitors.Sublist b.monitors) (no : TaskNo) :
    e.monitor? no = b.monitor? no ∨ e.monitor? no = none := by
  cases hleft : e.monitor? no with
  | none => exact Or.inr rfl
  | some k =>
    obtain ⟨hin, rfl⟩ := mem_of_monitor? hleft
    exact Or.inl (h.monitor? (hsub.subset hin)).symm

/-- When a monitor comes to listen, the others stay as they are. -/
theorem monitor?_of_listens {stream : Nat} (hmonitors : e.monitors = b.monitors.map fun j =>
      if j.no = k.no then { j with watch := .listening stream } else j) (no : TaskNo) :
    e.monitor? no = (b.monitor? no).map fun j =>
      if j.no = k.no then { j with watch := .listening stream } else j := by
  rw [monitor?, hmonitors, List.find?_map, monitor?]
  congr 1
  refine congrArg (b.monitors.find? ·) (funext fun j => ?_)
  simp only [Function.comp]
  split <;> rfl

variable [PooledError ε]

theorem Monitored.step (h : b.Monitored) (hstep : b.step c m = some e) : e.Monitored := by
  have hnext := (le_of_step hstep).1
  -- monitors come only with new sessions; in all other moves they are at most fewer
  have hsublist : (e.pool.active.map (·.1)).Nodup → (e.monitors.map (·.no)).Sublist (b.monitors.map (·.no)) →
      e.Monitored := by
    intro hnames hsub
    refine ⟨hnames, h.numbers.sublist hsub, fun k hk => ?_⟩
    obtain ⟨j, hj, hno⟩ := List.mem_map.mp (hsub.subset (List.mem_map_of_mem hk))
    rw [← show j.no = k.no from hno]
    exact (h.no_lt j hj).trans_le hnext
  cases relieves_of_step h.names hstep with
  | attends _ hattends => exact hsublist (h.names.sublist hattends.names) (hattends.monitors.map _)
  | registers no s _ _ hmonitors _ _ hnames _ hgiven =>
    refine ⟨?_, ?_, fun k hk => ?_⟩
    · rw [hnames, List.nodup_cons]
      exact ⟨by simp, h.names.filter _⟩
    · rw [hmonitors, List.map_append, List.nodup_append]
      refine ⟨h.numbers, List.nodup_singleton _, ?_⟩
      intro n hn n' hn' heq
      obtain ⟨j, hj, rfl⟩ := List.mem_map.mp hn
      have hnew : n' = b.nextNo := by simpa using hn'
      exact absurd (heq.trans hnew) (Nat.ne_of_lt (h.no_lt j hj))
    · rw [hmonitors] at hk
      rw [hgiven]
      rcases List.mem_append.mp hk with hk | hk
      · exact Nat.lt_succ_of_lt (h.no_lt k hk)
      · rw [List.mem_singleton.mp hk]
        exact Nat.lt_succ_self _
  | listens k hk stream _ _ hpool _ hmonitors =>
    have hnos : e.monitors.map (·.no) = b.monitors.map (·.no) := by
      rw [hmonitors, List.map_map]
      refine List.map_congr_left fun j _ => ?_
      simp only [Function.comp]
      split <;> rfl
    exact hsublist (hpool ▸ h.names) (hnos ▸ List.Sublist.refl _)
  | condemns k hk _ hpool _ hmonitors =>
    exact hsublist (hpool ▸ h.names) (hmonitors ▸ List.filter_sublist.map _)

omit [PooledError ε] in
theorem Monitored.withBackground (h : e.Monitored) (background : Bool) :
    ({ e with background := background } : Engine ε α).Monitored :=
  ⟨h.names, h.numbers, h.no_lt⟩

theorem Monitored.run {xs : List (Bool × Move ε α)} (h : e.Monitored) (hrun : e.run c xs = some e') :
    e'.Monitored :=
  holds_of_run (fun hstep hb => (hb.withBackground _).step hstep) hrun h

/-! ## What a move does to one monitor -/

/-- What a move does to the monitor with the number `no` and to its flag. -/
inductive Serves (no : TaskNo) (m : Move ε α) (b e : Engine ε α) : Prop
  /-- The monitor is told nothing.  It may be stopped. -/
  | aside (htold : ∀ x, m.told? ≠ some (no, x)) (halive : e.isAlive no = b.isAlive no)
      (hmonitor : e.monitor? no = b.monitor? no ∨ e.monitor? no = none)
  /-- The monitor is told something that gives it no reason. -/
  | goesOn (k : Monitor) (hk : b.monitor? no = some k) (x : Tiding) (hm : m = x.move no)
      (hreason : x.reason? = none) (hfirst : k.watch = .attaching ↔ ∃ result, x = .attached result)
      (halive : e.isAlive no = b.isAlive no) (stream : Nat)
      (hmonitor : e.monitor? no = some { k with watch := .listening stream })
  /-- The monitor is told something that gives it a reason. -/
  | ends (k : Monitor) (hk : b.monitor? no = some k) (x : Tiding) (hm : m = x.move no) (reason : String)
      (hreason : x.reason? = some reason) (hfirst : k.watch = .attaching ↔ ∃ result, x = .attached result)
      (halive : e.isAlive no = false) (hmonitor : e.monitor? no = none)

omit [PooledError ε] in
theorem serves_condemn {x : Tiding} (hk : b.monitor? no = some k) {reason : String}
    (hreason : x.reason? = some reason) (hfirst : k.watch = .attaching ↔ ∃ result, x = .attached result) :
    Serves no (x.move no) b (b.condemn k reason) := by
  obtain ⟨hin, rfl⟩ := mem_of_monitor? hk
  have hgone : (b.condemn k reason).flags = (b.flags.markDead k.no).2 ∧
      (b.condemn k reason).monitors = b.monitors.filter (·.no ≠ k.no) := by
    unfold condemn
    dsimp only
    split <;> exact ⟨rfl, rfl⟩
  refine .ends k hk x rfl reason hreason hfirst ?_ ?_
  · rw [isAlive, hgone.1, Flags.isAlive_markDead]
    simp
  · rw [Engine.monitor?, hgone.2]
    simp

/-- A monitor that is told something is one that there is, and waits for it. -/
theorem serves_of_told {x : Tiding} (hstep : b.step c (x.move no) = some e) : Serves no (x.move no) b e := by
  cases x with
  | attached result =>
    obtain ⟨k, hk, hmove⟩ := Option.bind_eq_some_iff.mp hstep
    obtain ⟨hwatch, heq⟩ := Option.ite_none_right_eq_some.mp hmove
    cases heq
    have hfirst : k.watch = .attaching ↔ ∃ r, Tiding.attached result = .attached r :=
      iff_of_true hwatch ⟨result, rfl⟩
    cases result with
    | error error => exact serves_condemn hk rfl hfirst
    | ok stream =>
      refine .goesOn k hk (.attached (.ok stream)) rfl rfl hfirst rfl stream ?_
      obtain ⟨-, rfl⟩ := mem_of_monitor? hk
      -- only the monitor that has attached is changed
      have hlistens := monitor?_of_listens (b := b) (e := b.attached k (.ok stream)) rfl k.no
      rw [hlistens, hk, Option.map_some, if_pos rfl]
  | heard message =>
    obtain ⟨k, hk, hmove⟩ := Option.bind_eq_some_iff.mp hstep
    obtain ⟨hwatch, heq⟩ := Option.ite_none_left_eq_some.mp hmove
    cases heq
    have hfirst : k.watch = .attaching ↔ ∃ r, Tiding.heard message = .attached r :=
      iff_of_false hwatch (by simp)
    rcases message with error | status
    · exact serves_condemn hk rfl hfirst
    · cases status with
      | unusable code => exact serves_condemn hk rfl hfirst
      | ready =>
        cases hlistening : k.watch with
        | attaching => exact absurd hlistening hwatch
        | listening stream =>
          refine .goesOn k hk (.heard (.ok .ready)) rfl rfl hfirst rfl stream ?_
          rw [← hlistening]
          exact hk
  | ended =>
    obtain ⟨k, hk, hmove⟩ := Option.bind_eq_some_iff.mp hstep
    obtain ⟨hwatch, heq⟩ := Option.ite_none_left_eq_some.mp hmove
    cases heq
    exact serves_condemn hk rfl (iff_of_false hwatch (by simp))

theorem serves_of_step (h : b.Monitored) (hno : no < b.nextNo) (hstep : b.step c m = some e) :
    Serves no m b e := by
  by_cases htold : ∃ x, m.told? = some (no, x)
  · obtain ⟨x, hx⟩ := htold
    cases eq_move_of_told? hx
    exact serves_of_told hstep
  · rw [not_exists] at htold
    -- the move is about another monitor, or about none
    cases relieves_of_step h.names hstep with
    | attends _ hattends =>
      refine .aside htold ?_ (h.monitor?_of_sublist hattends.monitors no)
      rw [isAlive, hattends.flags]
      rfl
    | registers _ s _ hflags hmonitors =>
      refine .aside htold (by rw [isAlive, hflags]; rfl) (Or.inl ?_)
      rw [monitor?, hmonitors, List.find?_append]
      simp [monitor?, Nat.ne_of_gt hno]
    | listens k hk stream hm _ _ hflags hmonitors =>
      have hne : no ≠ k.no := by
        rintro rfl
        exact htold (.attached (.ok stream)) (by rw [hm]; rfl)
      refine .aside htold (by rw [isAlive, hflags]; rfl) (Or.inl ?_)
      rw [monitor?_of_listens hmonitors no]
      cases hj : b.monitor? no with
      | none => rfl
      | some j =>
        obtain ⟨-, rfl⟩ := mem_of_monitor? hj
        rw [Option.map_some, if_neg hne]
    | condemns k hk _ _ hflags hmonitors x hx =>
      have hne : no ≠ k.no := by
        rintro rfl
        exact htold x hx
      refine .aside htold ?_ (h.monitor?_of_sublist (hmonitors ▸ List.filter_sublist) no)
      rw [isAlive, hflags, Flags.isAlive_markDead, bne_iff_ne.mpr hne, Bool.and_true]
      rfl

/-! ## What is found dead in a run -/

/-- The sessions that are found dead in a run while their flags are alive. -/
def obituaries (c : Setup) (e : Engine ε α) : List (Bool × Move ε α) → List Obituary
  | [] => []
  | x :: xs => (e.obituary? x.2).toList ++ ((e.stepAt c x).toList.flatMap fun e => obituaries c e xs)

omit [PooledError ε] in
theorem obituary?_of_told? {x : Tiding} (htold : m.told? = some (no, x)) :
    e.obituary? m = (e.monitor? no).bind fun k => x.reason?.bind fun reason =>
      if e.isAlive no = true then some ⟨no, k.id, reason⟩ else none := by
  rw [obituary?, htold]
  rfl

omit [PooledError ε] in
/-- Without a reason nobody is found dead. -/
theorem obituary?_eq_none (hm : m.condemned? = none) : e.obituary? m = none := by
  cases htold : m.told? with
  | none =>
    rw [obituary?, htold]
    rfl
  | some y =>
    obtain ⟨no, x⟩ := y
    rw [m.condemned?_eq, htold] at hm
    have hreason : x.reason? = none := by simpa using hm
    rw [obituary?_of_told? htold, hreason]
    cases e.monitor? no <;> rfl

/-- The flag of whoever is found dead goes dead, and notice is given of it. -/
theorem notices_of_step (h : b.Monitored) (hstep : b.step c m = some e) :
    e.notices = b.notices ++ (b.obituary? m).toList.map Obituary.notice ∧
      e.flags.dead = (b.obituary? m).toList.map Obituary.no ++ b.flags.dead := by
  -- a move that finds no session dead gives no notice
  have hquiet : m.condemned? = none → e.notices = b.notices → e.flags = b.flags →
      e.notices = b.notices ++ (b.obituary? m).toList.map Obituary.notice ∧
        e.flags.dead = (b.obituary? m).toList.map Obituary.no ++ b.flags.dead := by
    intro hm hnotices hflags
    rw [obituary?_eq_none hm, hnotices, hflags]
    exact ⟨(List.append_nil _).symm, rfl⟩
  cases relieves_of_step h.names hstep with
  | attends hm hattends =>
    refine hquiet (Option.eq_none_iff_forall_ne_some.mpr fun no hno => ?_) hattends.notices hattends.flags
    rw [Move.decides_of_condemned hno] at hm
    cases hm
  | registers _ s hm hflags _ _ _ _ hnotices => exact hquiet (by rw [hm]; rfl) hnotices hflags
  | listens k hk stream hm _ _ hflags _ hnotices => exact hquiet (by rw [hm]; rfl) hnotices hflags
  | condemns k hk _ _ hflags _ x htold reason hreason hnotices =>
    rw [obituary?_of_told? htold, h.monitor? hk, hreason, hnotices, hflags]
    simp only [Option.bind_some, Flags.markDead]
    cases halive : b.isAlive k.no with
    | true =>
      have hdead : b.flags.isAlive k.no = true := halive
      rw [hdead]
      exact ⟨rfl, rfl⟩
    | false =>
      have hdead : b.flags.isAlive k.no = false := halive
      rw [hdead]
      exact ⟨rfl, rfl⟩

/-! ## Vigils -/

/-- The monitor `k` was to attach when the flags were as in `fs`; since then it has been told `xs`, and `os`
have been found dead. -/
structure Vigil (k : Monitor) (fs : Flags) (xs : List Tiding) (os : List Obituary) (e : Engine ε α) :
    Prop where
  /-- The monitors are in order. -/
  monitored : e.Monitored
  /-- The number of the monitor is not given away again. -/
  no_lt : k.no < e.nextNo
  /-- The monitor has attached at most once, and has taken in nothing after the first reason. -/
  heeds : ∃ s : Script, xs <+: heeded s.tidings
  /-- The flag is as it was, unless there was a reason. -/
  alive : e.isAlive k.no = (fs.isAlive k.no && (cause? xs).isNone)
  /-- The session was found dead once if there was a reason, and the first one is given. -/
  found : os.filter (·.no = k.no) =
    if fs.isAlive k.no = true then (cause? xs).toList.map (⟨k.no, k.id, ·⟩) else []
  /-- As long as the monitor waits, it waits for the next tiding. -/
  waits : ∀ j, e.monitor? k.no = some j → j.id = k.id ∧ cause? xs = none ∧
    if j.watch = .attaching then xs = [] else ∃ result messages, xs = Script.tidings ⟨result, messages, false⟩

omit [PooledError ε] in
theorem exists_told_of_obituary? {o : Obituary} (ho : e.obituary? m = some o) :
    ∃ x, m.told? = some (o.no, x) := by
  cases htold : m.told? with
  | none =>
    rw [obituary?, htold] at ho
    cases ho
  | some y =>
    obtain ⟨n, x⟩ := y
    rw [obituary?_of_told? htold] at ho
    obtain ⟨j, -, ho⟩ := Option.bind_eq_some_iff.mp ho
    obtain ⟨reason, -, ho⟩ := Option.bind_eq_some_iff.mp ho
    obtain ⟨-, heq⟩ := Option.ite_none_right_eq_some.mp ho
    cases heq
    exact ⟨x, rfl⟩

omit [PooledError ε] in
/-- Of a monitor that is told nothing there is no obituary. -/
theorem filter_obituary?_of_aside (htold : ∀ x, m.told? ≠ some (no, x)) :
    (e.obituary? m).toList.filter (·.no = no) = [] := by
  cases ho : e.obituary? m with
  | none => rfl
  | some o =>
    obtain ⟨x, hx⟩ := exists_told_of_obituary? ho
    have hne : o.no ≠ no := by
      rintro rfl
      exact htold x hx
    simp [hne]

namespace Vigil

variable {fs : Flags} {xs : List Tiding} {os : List Obituary}

omit [PooledError ε] in
theorem begin (h : e.Monitored) (hk : k ∈ e.monitors) (hwatch : k.watch = .attaching) (fs : Flags) :
    Vigil k fs [] [] { e with flags := fs } where
  monitored := ⟨h.names, h.numbers, h.no_lt⟩
  no_lt := h.no_lt k hk
  heeds := ⟨⟨.ok 0, [], false⟩, List.nil_prefix⟩
  alive := (Bool.and_true _).symm
  found := by simp [cause?]
  waits := fun j hj => by
    cases (h.monitor? hk).symm.trans hj
    exact ⟨rfl, rfl, if_pos hwatch ▸ rfl⟩

theorem step (h : Vigil k fs xs os b) (hstep : b.step c m = some e) :
    Vigil k fs (xs ++ (m.tiding? k.no).toList) (os ++ (b.obituary? m).toList) e := by
  have hno_lt := h.no_lt.trans_le (le_of_step hstep).1
  cases serves_of_step h.monitored h.no_lt hstep with
  | aside htold halive hmonitor =>
    rw [Move.tiding?_eq_none htold, Option.toList_none, List.append_nil]
    refine ⟨h.monitored.step hstep, hno_lt, h.heeds, halive.trans h.alive, ?_, fun j hj => ?_⟩
    · rw [List.filter_append, filter_obituary?_of_aside htold, List.append_nil, h.found]
    · rcases hmonitor with hsame | hgone
      · exact h.waits j (hsame ▸ hj)
      · rw [hgone] at hj
        cases hj
  | goesOn j hj x hm hreason hfirst halive stream hmonitor =>
    obtain ⟨hid, hcause, hxs⟩ := h.waits j hj
    -- what was taken in so far is the beginning of some script, which goes on with the new tiding
    obtain ⟨s, hs, hends⟩ := exists_script_concat hxs hfirst
    have hcause' : cause? (xs ++ [x]) = none := by rw [cause?_concat, hcause, hreason]; rfl
    have hobituary : b.obituary? m = none := by
      rw [hm, obituary?_of_told? (told?_move k.no x), hreason]
      cases b.monitor? k.no <;> rfl
    rw [hm, Move.tiding?_move, ← hm, hobituary, Option.toList_some, Option.toList_none, List.append_nil]
    refine ⟨h.monitored.step hstep, hno_lt, ⟨s, ?_⟩, ?_, ?_, fun j' hj' => ?_⟩
    · rw [← hs, heeded_append hcause, heeded, hreason]
      exact List.prefix_refl _
    · rw [halive, h.alive, hcause, hcause']
    · rw [h.found, hcause, hcause']
    · cases hmonitor.symm.trans hj'
      refine ⟨hid, hcause', ?_⟩
      -- the end of the stream would have been a reason
      have hended : x ≠ .ended := by
        rintro rfl
        cases hreason
      rw [if_neg (by simp)]
      obtain ⟨result, messages, ends⟩ := s
      cases hends hended
      exact ⟨result, messages, hs⟩
  | ends j hj x hm reason hreason hfirst halive hmonitor =>
    obtain ⟨hid, hcause, hxs⟩ := h.waits j hj
    obtain ⟨s, hs, -⟩ := exists_script_concat hxs hfirst
    have hcause' : cause? (xs ++ [x]) = some reason := by rw [cause?_concat, hcause, hreason]; rfl
    have hobituary : b.obituary? m =
        if fs.isAlive k.no = true then some ⟨k.no, k.id, reason⟩ else none := by
      rw [hm, obituary?_of_told? (told?_move k.no x), hreason, hj, ← hid]
      rw [Option.bind_some, Option.bind_some, h.alive, hcause, Option.isNone_none, Bool.and_true]
    rw [hm, Move.tiding?_move, ← hm, hobituary, Option.toList_some]
    refine ⟨h.monitored.step hstep, hno_lt, ⟨s, ?_⟩, ?_, ?_, fun j' hj' => ?_⟩
    · rw [← hs, heeded_append hcause, heeded, hreason]
      exact List.prefix_refl _
    · rw [halive, hcause', Option.isNone_some, Bool.and_false]
    · rw [List.filter_append, h.found, hcause, hcause']
      split <;> simp
    · rw [hmonitor] at hj'
      cases hj'

omit [PooledError ε] in
theorem withBackground (h : Vigil k fs xs os e) (background : Bool) :
    Vigil k fs xs os { e with background := background } :=
  ⟨h.monitored.withBackground background, h.no_lt, h.heeds, h.alive, h.found, h.waits⟩

theorem run {ys : List (Bool × Move ε α)} (h : Vigil k fs xs os e) (hrun : e.run c ys = some e') :
    Vigil k fs (xs ++ tidings k.no ys) (os ++ obituaries c e ys) e' := by
  induction ys generalizing e xs os with
  | nil =>
    cases hrun
    rwa [tidings, List.filterMap_nil, obituaries, List.append_nil, List.append_nil]
  | cons y ys ih =>
    obtain ⟨e₁, hstep, hrest⟩ := Option.bind_eq_some_iff.mp hrun
    have hnext := ih ((h.withBackground y.1).step hstep) hrest
    rw [tidings_cons, obituaries, hstep, Option.toList_some, List.flatMap_singleton, ← List.append_assoc,
      ← List.append_assoc]
    exact hnext

end Vigil

/-! ## Runs -/

/-- All notices that are given in a run are given of those who are found dead, one of each, and their flags go
dead. -/
theorem notices_of_run {ys : List (Bool × Move ε α)} (h : e.Monitored) (hrun : e.run c ys = some e') :
    e'.notices = e.notices ++ (obituaries c e ys).map Obituary.notice ∧
      e'.flags.dead = ((obituaries c e ys).map Obituary.no).reverse ++ e.flags.dead := by
  induction ys generalizing e with
  | nil =>
    cases hrun
    exact ⟨(List.append_nil _).symm, rfl⟩
  | cons y ys ih =>
    obtain ⟨e₁, hstep, hrest⟩ := Option.bind_eq_some_iff.mp hrun
    obtain ⟨hnotices, hdead⟩ := notices_of_step (h.withBackground y.1) hstep
    obtain ⟨hnotices', hdead'⟩ := ih ((h.withBackground y.1).step hstep) hrest
    have hobituary : ({ e with background := y.1 } : Engine ε α).obituary? y.2 = e.obituary? y.2 := rfl
    rw [hobituary] at hnotices hdead
    rw [obituaries, hstep, Option.toList_some, List.flatMap_singleton, hnotices', hdead', hnotices, hdead]
    constructor
    · rw [List.map_append, List.append_assoc]
      rfl
    · cases e.obituary? y.2 <;> simp

/-- A flag that is dead stays dead. -/
theorem dead_of_run {ys : List (Bool × Move ε α)} (h : e.Monitored) (hrun : e.run c ys = some e')
    {n : FlagNo} (hdead : e.isAlive n = false) : e'.isAlive n = false := by
  have hin : n ∈ e.flags.dead := by simpa [isAlive, Flags.isAlive] using hdead
  have hlater : n ∈ e'.flags.dead := by
    rw [(notices_of_run h hrun).2]
    exact List.mem_append_right _ hin
  simpa [isAlive, Flags.isAlive] using hlater

/-- A monitor that has ended or was stopped is told nothing any more, and its flag stays as it is. -/
theorem silent_of_run {ys : List (Bool × Move ε α)} (h : e.Monitored) (hno : no < e.nextNo)
    (hgone : e.monitor? no = none) (hrun : e.run c ys = some e') :
    tidings no ys = [] ∧ e'.isAlive no = e.isAlive no ∧ (obituaries c e ys).filter (·.no = no) = [] := by
  induction ys generalizing e with
  | nil =>
    cases hrun
    exact ⟨rfl, rfl, rfl⟩
  | cons y ys ih =>
    obtain ⟨e₁, hstep, hrest⟩ := Option.bind_eq_some_iff.mp hrun
    cases serves_of_step (h.withBackground y.1) hno hstep with
    | aside htold halive hmonitor =>
      have hgone₁ : e₁.monitor? no = none := hmonitor.elim (fun hsame => hsame.trans hgone) id
      obtain ⟨htidings, halive', hfound⟩ :=
        ih ((h.withBackground y.1).step hstep) (hno.trans_le (le_of_step hstep).1) hgone₁ hrest
      refine ⟨?_, halive'.trans halive, ?_⟩
      · rw [tidings_cons, Move.tiding?_eq_none htold, htidings]
        rfl
      · rw [obituaries, hstep, Option.toList_some, List.flatMap_singleton, List.filter_append, hfound,
          List.append_nil]
        exact filter_obituary?_of_aside htold
    | goesOn k hk => cases hgone.symm.trans hk
    | ends k hk => cases hgone.symm.trans hk

/-! ## Any script can be told -/

/-- A monitor that waits for a tiding can be told it. -/
theorem exists_step_move {x : Tiding} (hk : b.monitor? no = some k)
    (hfirst : k.watch = .attaching ↔ ∃ result, x = .attached result) :
    ∃ e : Engine ε α, b.step c (x.move no) = some e := by
  cases x with
  | attached result =>
    refine ⟨b.attached k result, ?_⟩
    rw [move, Engine.step, hk]
    exact if_pos (hfirst.mpr ⟨result, rfl⟩)
  | heard message =>
    refine ⟨b.heard k message, ?_⟩
    rw [move, Engine.step, hk]
    exact if_neg (by simp [hfirst])
  | ended =>
    refine ⟨b.condemn k "stream closed", ?_⟩
    rw [move, Engine.step, hk]
    exact if_neg (by simp [hfirst])

/-- The moves in which a monitor is told what it takes in of what there is to tell. -/
def telling (no : TaskNo) (xs : List Tiding) : List (Bool × Move ε α) :=
  (heeded xs).map fun x => (true, x.move no)

omit [PooledError ε] in
/-- A monitor that is told in these moves takes in exactly that. -/
theorem tidings_telling (no : TaskNo) (xs : List Tiding) :
    tidings no (telling no xs : List (Bool × Move ε α)) = heeded xs := by
  rw [tidings, telling, List.filterMap_map]
  simp

/-- A monitor that waits for the first tiding can be told it, and if that gives no reason, what comes next. -/
theorem exists_run_cons {x : Tiding} {xs : List Tiding} (hk : b.monitor? no = some k)
    (hfirst : k.watch = .attaching ↔ ∃ result, x = .attached result)
    (hrest : ∀ (e : Engine ε α) (j : Monitor), e.monitor? no = some j → j.watch ≠ .attaching →
      ∃ e', e.run c (telling no xs) = some e') :
    ∃ e : Engine ε α, b.run c (telling no (x :: xs)) = some e := by
  obtain ⟨e, hstep⟩ := exists_step_move (b := { b with background := true }) (c := c) hk hfirst
  have hhead : b.run c (telling no (x :: xs)) =
      e.run c ((if x.reason?.isSome then [] else heeded xs).map fun x => (true, x.move no)) := by
    rw [telling, heeded, List.map_cons, Engine.run, stepAt, hstep, Option.bind_some]
  rw [hhead]
  cases serves_of_told hstep with
  | aside htold => exact absurd (told?_move no x) (htold x)
  | goesOn j _ y hm hreason _ _ stream hmonitor =>
    rw [move_inj hm, hreason]
    exact hrest e _ hmonitor (by simp)
  | ends j _ y hm reason hreason =>
    rw [move_inj hm, hreason]
    exact ⟨e, rfl⟩

/-- A monitor that listens can be told messages, and the end. -/
theorem exists_run_telling {xs : List Tiding} (hk : b.monitor? no = some k) (hwatch : k.watch ≠ .attaching)
    (hxs : ∀ x ∈ xs, ¬ ∃ result, x = .attached result) :
    ∃ e : Engine ε α, b.run c (telling no xs) = some e := by
  induction xs generalizing b k with
  | nil => exact ⟨b, rfl⟩
  | cons x xs ih =>
    refine exists_run_cons hk (iff_of_false hwatch (hxs x List.mem_cons_self)) fun e j hj hlistens => ?_
    exact ih hj hlistens fun y hy => hxs y (List.mem_cons_of_mem _ hy)

/-- A monitor that is to attach can be told any script. -/
theorem exists_run_script (hk : b.monitor? no = some k) (hwatch : k.watch = .attaching) (s : Script) :
    ∃ e : Engine ε α, b.run c (telling no s.tidings) = some e := by
  refine exists_run_cons hk (iff_of_true hwatch ⟨s.result, rfl⟩) fun e j hj hlistens => ?_
  refine exists_run_telling hj hlistens fun x hx => ?_
  rintro ⟨result, rfl⟩
  rcases List.mem_append.mp hx with hx | hx
  · obtain ⟨message, -, heq⟩ := List.mem_map.mp hx
    cases heq
  · split at hx <;> simp at hx

/-! ## Any stream -/

/-- What a monitor does, whatever the server tells it and whatever else happens in the pool.  It may begin
while its flag, and any others, have been marked dead by somebody else.

It takes in what there is to tell, in order, attaches only once, and takes in nothing after the first reason
to take its session for dead.  If it has been told all of a script, its flag is alive only if it was before
and nothing is wrong in the script.  At any moment its flag is as it was unless there has been a reason; then
the session was found dead once, the notice names the first reason, and the monitor has ended.  Once it has
ended or was stopped, it is told nothing, nobody finds its session dead, and the flag stays as it is.  There
are no other notices than those of the sessions that are found dead.  Whatever the script, there are moves in
which it is told just what it takes in of that.  A flag that is dead stays dead, and of all that mark a flag, one
sees the transition if it was alive. -/
theorem vigil_of_run (c : Setup) (g : Generator) (fs : Flags) (xs ys : List (Bool × Move ε α))
    {e e' : Engine ε α} {k : Monitor} (hrun : (fresh g).run c xs = some e) (hk : k ∈ e.monitors)
    (hwatch : k.watch = .attaching) (hlater : ({ e with flags := fs } : Engine ε α).run c ys = some e') :
    (∃ s : Script, tidings k.no ys <+: heeded s.tidings) ∧
    (∀ s : Script, tidings k.no ys = heeded s.tidings →
      (e'.isAlive k.no = true ↔ fs.isAlive k.no = true ∧ s.IsHealthy)) ∧
    e'.isAlive k.no = (fs.isAlive k.no && (cause? (tidings k.no ys)).isNone) ∧
    (obituaries c { e with flags := fs } ys).filter (·.no = k.no) =
      (if fs.isAlive k.no = true then (cause? (tidings k.no ys)).toList.map (⟨k.no, k.id, ·⟩) else []) ∧
    e'.notices = e.notices ++ (obituaries c { e with flags := fs } ys).map Obituary.notice ∧
    ((cause? (tidings k.no ys)).isSome = true → e'.monitor? k.no = none) ∧
    (e'.monitor? k.no = none → ∀ zs e'', e'.run c zs = some e'' →
      tidings k.no zs = [] ∧ e''.isAlive k.no = e'.isAlive k.no ∧
        (obituaries c e' zs).filter (·.no = k.no) = []) ∧
    (∀ s : Script, tidings k.no (telling k.no s.tidings : List (Bool × Move ε α)) = heeded s.tidings ∧
      ∃ e'', ({ e with flags := fs } : Engine ε α).run c (telling k.no s.tidings) = some e'') ∧
    (∀ n, fs.isAlive n = false → e'.isAlive n = false) ∧
    ∀ ns n, (fs.markAll ns).1.count (n, true) = (if fs.isAlive n = true ∧ n ∈ ns then 1 else 0) ∧
      (fs.markAll ns).2.isAlive n = (fs.isAlive n && !ns.contains n) := by
  have hmonitored : e.Monitored := (monitored_fresh g).run hrun
  have hbegin := Vigil.begin hmonitored hk hwatch fs
  have hvigil := hbegin.run hlater
  rw [List.nil_append, List.nil_append] at hvigil
  refine ⟨hvigil.heeds, fun s hs => ?_, hvigil.alive, hvigil.found, (notices_of_run hbegin.monitored hlater).1,
    fun hcause => ?_, fun hgone zs e'' => silent_of_run hvigil.monitored hvigil.no_lt hgone,
    fun s => ⟨tidings_telling k.no s.tidings,
      exists_run_script (b := { e with flags := fs }) (hmonitored.monitor? hk) hwatch s⟩,
    fun n => dead_of_run hbegin.monitored hlater,
    fun ns n => ⟨fs.count_markAll ns n, fs.isAlive_markAll ns n⟩⟩
  · rw [hvigil.alive, hs, cause?_heeded, Bool.and_eq_true, Option.isNone_iff_eq_none, cause?_tidings_eq_none]
  · refine Option.eq_none_iff_forall_ne_some.mpr fun j hj => ?_
    rw [(hvigil.waits j hj).2.1] at hcause
    cases hcause

/-- A caller acquires a session. -/
def acquireOne : List (Bool × Move DriverError Int) :=
  [(true, .call .lease (.unnamed 0)), (true, .start 0), (true, .created 0 (.ok ⟨⟨"a"⟩, 1⟩))]

/-- The server says that the session is ready and then that it has expired. -/
def expire : List (Bool × Move DriverError Int) :=
  [(true, .attached 1 (.ok 0)), (true, .heard 1 (.ok .ready)), (true, .heard 1 (.ok (.unusable .sessionExpired)))]

theorem vigil_of_run_of_expire :
    ∃ e e' : Engine DriverError Int,
      (fresh ⟨1⟩).run (.ofConfig {} .standard none) acquireOne = some e ∧ ⟨1, ⟨"a"⟩, .attaching⟩ ∈ e.monitors ∧
      ({ e with flags := .fresh } : Engine DriverError Int).run (.ofConfig {} .standard none) expire = some e' ∧
      e'.isAlive 1 = false ∧
      ((obituaries (.ofConfig {} .standard none) { e with flags := .fresh } expire).filter (·.no = 1)) =
        [⟨1, ⟨"a"⟩, "server reported session_expired"⟩] ∧
      e'.monitor? 1 = none := by
  obtain ⟨-, -, halive, hfound, -, hended, -⟩ := vigil_of_run (.ofConfig {} .standard none) ⟨1⟩ .fresh
    acquireOne expire (k := ⟨1, ⟨"a"⟩, .attaching⟩) rfl (List.mem_singleton_self _) rfl rfl
  exact ⟨_, _, rfl, List.mem_singleton_self _, rfl, halive, hfound, hended rfl⟩

end Engine

end PooledSessions
