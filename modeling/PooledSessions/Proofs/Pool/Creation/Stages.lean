import PooledSessions.Proofs.Pool.Creation.Basic
import PooledSessions.Proofs.Pool.Execution.Agreement
/-!
# Stages of a creation

Between the answers to the creations of a call, other calls move, sessions come and go and the clock goes on.
Nothing of that matters to the call as long as nobody cancels or drops it and the pool is not closed: it waits
for an answer or for the next attempt, or its client has been granted a lease or refused one
(`Engine.Stage`).  A move takes it on by one answer at most (`Engine.Stage.step`), and so a run takes it on by
as many answers as it gives (`Engine.Stage.run`).

The tables are changed by no move of the call in which no session is created (`Engine.Stage.keeps_tables`).
-/

namespace PooledSessions

variable {ε α : Type}

namespace Engine

variable {c : Setup} {b e : Engine ε α} {m : Move ε α} {call : Call} {no : TaskNo} {token : Token}
  {client : Client} {a : Attempt} {o : Nat → Except RpcError SessionInfo} {n : Nat}

/-! ## Assumptions -/

/-- What is assumed of a move: it answers a creation of the call only with answer `n` of `o`, and it neither
drops the call nor ends its operation. -/
structure Fits (o : Nat → Except RpcError SessionInfo) (no : TaskNo) (n : Nat) (m : Move ε α) : Prop where
  /-- The answer is the next one. -/
  answer : ∀ r ∈ m.answer? no, r = o n
  /-- The call is not dropped. -/
  stays : m ≠ .abandon no
  /-- Its operation does not end. -/
  works : ∀ cancels result, m ≠ .operated no cancels result

/-- What is assumed of a run that leads to the pool `e`: the creations of the call are answered as in `o` from
answer `n` on, the call is neither dropped nor cancelled, the pool is not closed, and the operation does not end
for which a session may have been created. -/
structure Scripted (o : Nat → Except RpcError SessionInfo) (no : TaskNo) (token : Token) (n : Nat)
    (ys : List (Bool × Move ε α)) (e : Engine ε α) : Prop where
  /-- The answers are the next ones of `o`. -/
  answers : answersTo no ys = (List.range' n (answersTo no ys).length).map o
  /-- The call is not dropped. -/
  stays : ∀ y ∈ ys, y.2 ≠ .abandon no
  /-- Its operation does not end. -/
  works : ∀ y ∈ ys, ∀ cancels result, y.2 ≠ .operated no cancels result
  /-- Its token has not been cancelled. -/
  uncancelled : e.isCancelled token = false
  /-- The pool has not been closed. -/
  isOpen : e.pool.closed = false

namespace Scripted

variable {y : Bool × Move ε α} {ys zs : List (Bool × Move ε α)} {e' : Engine ε α}

theorem uncons (h : Scripted o no token n (y :: ys) e) :
    Fits o no n y.2 ∧ Scripted o no token (n + (y.2.answer? no).toList.length) ys e := by
  have hanswers := h.answers
  rw [answersTo_cons] at hanswers
  have hstays := List.forall_mem_cons.mp h.stays
  have hworks := List.forall_mem_cons.mp h.works
  cases hr : y.2.answer? no with
  | none =>
    rw [hr] at hanswers
    exact ⟨⟨by simp [hr], hstays.1, hworks.1⟩, by simpa using hanswers, hstays.2, hworks.2, h.uncancelled,
      h.isOpen⟩
  | some r =>
    rw [hr, Option.toList_some, List.singleton_append, List.length_cons, List.range'_succ, List.map_cons,
      List.cons_eq_cons] at hanswers
    exact ⟨⟨by simpa [hr] using hanswers.1, hstays.1, hworks.1⟩, hanswers.2, hstays.2, hworks.2,
      h.uncancelled, h.isOpen⟩

theorem cons (hy : Fits o no n y.2) (h : Scripted o no token (n + (y.2.answer? no).toList.length) ys e) :
    Scripted o no token n (y :: ys) e := by
  refine ⟨?_, List.forall_mem_cons.mpr ⟨hy.stays, h.stays⟩, List.forall_mem_cons.mpr ⟨hy.works, h.works⟩,
    h.uncancelled, h.isOpen⟩
  have hanswers := h.answers
  rw [answersTo_cons]
  cases hr : y.2.answer? no with
  | none =>
    rw [hr] at hanswers
    simpa using hanswers
  | some r =>
    rw [hr] at hanswers
    obtain rfl := hy.answer r hr
    rw [Option.toList_some, List.singleton_append, List.length_cons, List.range'_succ, List.map_cons]
    exact congrArg _ hanswers

/-- What is assumed of two runs is assumed of the one followed by the other. -/
theorem append (h : Scripted o no token n ys e)
    (h' : Scripted o no token (n + (answersTo no ys).length) zs e') :
    Scripted o no token n (ys ++ zs) e' := by
  have hboth : answersTo no (ys ++ zs) = answersTo no ys ++ answersTo no zs := List.filterMap_append
  refine ⟨?_, List.forall_mem_append.mpr ⟨h.stays, h'.stays⟩, List.forall_mem_append.mpr ⟨h.works, h'.works⟩,
    h'.uncancelled, h'.isOpen⟩
  rw [hboth, List.length_append, ← List.range'_append_1, List.map_append, ← h.answers, ← h'.answers]

end Scripted

/-! ## The moves of the call -/

/-- The call that waits at a point. -/
theorem call_of_stop? {p : Point} (h : e.itinerary.stop? no = some p) (hp : p.closes = false) :
    ∃ k, e.call? k.no = some k ∧ k.no = no ∧ k.point = p := by
  rw [stop?_itinerary] at h
  obtain ⟨k, hk, hpoint⟩ := Option.map_eq_some_iff.mp h
  obtain ⟨-, rfl⟩ := mem_of_call? hk
  refine ⟨k, hk, rfl, ?_⟩
  cases hkp : k.point with
  | draining woken =>
    rw [hkp] at hpoint
    rw [← hpoint] at hp
    cases hp
  | _ => rw [← hpoint, hkp]; rfl

/-- The call that makes a move is the one of that number. -/
theorem eq_of_moves {k : Call} (hcall : b.call? call.no = some call) (hk : b.call? k.no = some k)
    (hno : some k.no = some call.no) : k = call := by
  rw [Option.some.inj hno, hcall] at hk
  exact (Option.some.inj hk).symm

variable [PooledError ε]

/-- A call waits where it waited after a move that it does not make. -/
theorem stop?_of_other (hno : no < b.nextNo) (hstep : b.step c m = some e) (hother : m.call? ≠ some no) :
    e.itinerary.stop? no = b.itinerary.stop? no := by
  cases travels_of_step hstep with
  | stays hm hi => rw [hi]; rfl
  | comes purpose token hm hi =>
    have hnew : b.nextNo ≠ no := Nat.ne_of_gt hno
    rw [hi]
    simp [Itinerary.stop?, List.find?_append, hnew]
  | goes k hk hm asked p hleg hi =>
    have hne : k.no ≠ no := fun heq => hother (heq ▸ hm)
    rw [hi, Itinerary.stop?_go_of_ne hne]

/-- A call that waits for the server to create a session and has not been cancelled goes on with an
answer. -/
theorem answered_of_step (hcall : b.call? call.no = some call) {since : Nat}
    (hpoint : call.point = .creating client a since) (hgo : b.isCancelled call.token = false)
    (hstep : b.step c m = some e) (hmoves : m.call? = some call.no) (hstays : m ≠ .abandon call.no) :
    ∃ b₁ result, StandsBy call.no b b₁ ∧ m.answer? call.no = some result ∧
      e = b₁.created c call client a result := by
  cases makes_of_step hstep with
  | created k client' a' since' result hk hpoint' =>
    obtain rfl := eq_of_moves hcall hk hmoves
    cases hpoint.symm.trans hpoint'
    exact ⟨b, result, ⟨rfl, rfl, rfl, rfl⟩, if_pos rfl, rfl⟩
  | createExpired k client' a' since' hk hpoint' =>
    obtain rfl := eq_of_moves hcall hk hmoves
    cases hpoint.symm.trans hpoint'
    exact ⟨_, _, standsBy_abandoned k.no b, if_pos rfl, rfl⟩
  | abandon k hk => exact absurd (congrArg Move.abandon (Option.some.inj hmoves)) hstays
  | creationNoticed k client' a' since' hk hpoint' hgone =>
    obtain rfl := eq_of_moves hcall hk hmoves
    rw [hgo] at hgone
    cases hgone
  | start k _ hk hpoint' | operated k _ _ _ _ _ hk hpoint' | createWoken k _ _ _ hk hpoint'
  | woken k _ _ hk hpoint' | createPauseNoticed k _ _ _ hk hpoint' | operationNoticed k _ _ _ hk hpoint'
  | pauseNoticed k _ _ hk hpoint' =>
    obtain rfl := eq_of_moves hcall hk hmoves
    cases hpoint.symm.trans hpoint'
  | proceed k hk hcloses =>
    obtain rfl := eq_of_moves hcall hk hmoves
    rw [hpoint] at hcloses
    cases hcloses
  | _ => cases hmoves

/-- A call that waits between two creations and has not been cancelled goes on with the next one. -/
theorem woken_of_step (hcall : b.call? call.no = some call) {wake : Nat}
    (hpoint : call.point = .createPause client a wake) (hgo : b.isCancelled call.token = false)
    (hstep : b.step c m = some e) (hmoves : m.call? = some call.no) (hstays : m ≠ .abandon call.no) :
    m.answer? call.no = none ∧ e = b.followCreation c call.no client (.attempt a.next) := by
  cases makes_of_step hstep with
  | createWoken k client' a' wake' hk hpoint' =>
    obtain rfl := eq_of_moves hcall hk hmoves
    cases hpoint.symm.trans hpoint'
    rw [hgo]
    exact ⟨rfl, rfl⟩
  | abandon k hk => exact absurd (congrArg Move.abandon (Option.some.inj hmoves)) hstays
  | createPauseNoticed k client' a' wake' hk hpoint' hgone =>
    obtain rfl := eq_of_moves hcall hk hmoves
    rw [hgo] at hgone
    cases hgone
  | start k _ hk hpoint' | created k _ _ _ _ hk hpoint' | createExpired k _ _ _ hk hpoint'
  | operated k _ _ _ _ _ hk hpoint' | woken k _ _ hk hpoint' | creationNoticed k _ _ _ hk hpoint'
  | operationNoticed k _ _ _ hk hpoint' | pauseNoticed k _ _ hk hpoint' =>
    obtain rfl := eq_of_moves hcall hk hmoves
    cases hpoint.symm.trans hpoint'
  | proceed k hk hcloses =>
    obtain rfl := eq_of_moves hcall hk hmoves
    rw [hpoint] at hcloses
    cases hcloses
  | _ => cases hmoves

/-- A call that has ended, or waits for its operation and has not been cancelled, goes on only with the end of
its operation. -/
theorem not_moves_of_operating (hrest : ∀ p ∈ b.itinerary.stop? no, p.isOperating = true)
    (hgo : ∀ k ∈ b.calls, k.no = no → b.isCancelled k.token = false) (hstep : b.step c m = some e)
    (hstays : m ≠ .abandon no) (hworks : ∀ cancels result, m ≠ .operated no cancels result) :
    m.call? ≠ some no := by
  intro hmoves
  -- a call that makes a move waits at a point, and that is its operation
  have hrests : ∀ {k : Call} {p : Point}, b.call? k.no = some k → some k.no = some no → k.point = p →
      p.isOperating = true ∧ b.isCancelled k.token = false := by
    rintro k p hk hno rfl
    rw [← Option.some.inj hno] at hrest
    refine ⟨?_, hgo k (mem_of_call? hk).1 (Option.some.inj hno)⟩
    have hroused := hrest k.point.roused (by rw [stop?_itinerary, hk]; rfl)
    cases hpoint : k.point <;> rw [hpoint] at hroused <;> first | rfl | cases hroused
  cases makes_of_step hstep with
  | abandon k hk => exact hstays (congrArg Move.abandon (Option.some.inj hmoves))
  | operated k a h since cancels result hk =>
    exact hworks cancels result (congrArg (Move.operated · cancels result) (Option.some.inj hmoves))
  | operationNoticed k a h since hk hpoint hgone =>
    rw [(hrests hk hmoves hpoint).2] at hgone
    cases hgone
  | start k _ hk hpoint | created k _ _ _ _ hk hpoint | createExpired k _ _ _ hk hpoint
  | createWoken k _ _ _ hk hpoint | woken k _ _ hk hpoint | creationNoticed k _ _ _ hk hpoint
  | createPauseNoticed k _ _ _ hk hpoint | pauseNoticed k _ _ hk hpoint =>
    cases (hrests hk hmoves hpoint).1
  | proceed k hk hcloses =>
    have hoperating := (hrests hk hmoves rfl).1
    cases hpoint : k.point with
    | operating a h since =>
      rw [hpoint] at hcloses
      cases hcloses
    | _ =>
      rw [hpoint] at hoperating
      cases hoperating
  | _ => cases hmoves

/-! ## Stages -/

/-- The number has been given to a call with the token. -/
structure Assigned (no : TaskNo) (token : Token) (e : Engine ε α) : Prop where
  /-- The calls are in order. -/
  orderly : e.Orderly
  /-- The number has been given away. -/
  no_lt : no < e.nextNo
  /-- The call of that number has the token. -/
  token_eq : ∀ k ∈ e.calls, k.no = no → k.token = token

omit [PooledError ε] in
theorem Assigned.withBackground (h : b.Assigned no token) (place : Bool) :
    ({ b with background := place } : Engine ε α).Assigned no token :=
  ⟨h.orderly.withBackground place, h.no_lt, h.token_eq⟩

theorem Assigned.step (h : b.Assigned no token) (hstep : b.step c m = some e) :
    e.Assigned no token := by
  refine ⟨orderly_of_step h.orderly hstep, h.no_lt.trans_le (le_of_step hstep).1, fun k hk hno => ?_⟩
  rcases identity_of_step h.orderly hstep hk with ⟨k₀, hk₀, hsame⟩ | ⟨hnew, -⟩
  · simp only [Call.identity, Prod.mk.injEq] at hsame
    rw [← hsame.2.1]
    exact h.token_eq k₀ hk₀ (hsame.1.trans hno)
  · exact absurd (hno.symm.trans hnew) (Nat.ne_of_lt h.no_lt)

/-- How far a call has come that has a session created, when `n` of its creations have been answered as in `o`.
Of the call was told `before` what the answers have nothing to do with; and the tables are those of its
admission but for its own place if it moves `alone`. -/
inductive Stage (c : Setup) (o : Nat → Except RpcError SessionInfo) (no : TaskNo) (client : Client)
    (before : List (Signal ε α)) (tables : Pool) (alone : Prop) (e : Engine ε α) : Nat → Prop
  /-- The server has been asked once more than it has answered. -/
  | asking (n since : Nat) (hgo : c.GoesPast o n)
      (hstop : e.itinerary.stop? no = some (.creating client ⟨n + 1, true⟩ since))
      (htold : e.toldOf no = before ++ List.replicate (n + 1) (.createBegun no))
      (hpool : alone → e.pool = tables) : Stage c o no client before tables alone e n
  /-- The call waits before it asks again. -/
  | pausing (n wake : Nat) (hgo : c.GoesPast o n)
      (hstop : e.itinerary.stop? no = some (.createPause client ⟨n, true⟩ wake))
      (htold : e.toldOf no = before ++ List.replicate n (.createBegun no))
      (hpool : alone → e.pool = tables) : Stage c o no client before tables alone e n
  /-- The last answer is a session, which the client was granted. -/
  | granted (n : Nat) (s : SessionInfo) (flag : FlagNo) (hgo : c.GoesPast o n) (hanswer : o n = .ok s)
      (hstop : ∀ p ∈ e.itinerary.stop? no, p.isOperating = true)
      (htold : e.toldOf no = before ++ List.replicate (n + 1) (.createBegun no) ++
        [grant no client ⟨s.id, s.node, flag⟩]) : Stage c o no client before tables alone e (n + 1)
  /-- The last answer is an error, which the client was told. -/
  | refused (n : Nat) (error : RpcError) (hgo : c.GoesPast o n)
      (hlast : c.StopsAt o (n + 1)) (hanswer : o n = .error error)
      (hstop : e.itinerary.stop? no = none)
      (htold : e.toldOf no = before ++ List.replicate (n + 1) (.createBegun no) ++
        [refusal no client (.creationFailed error (c.usedUp error))])
      (hpool : alone → e.pool = tables.releasePending) :
      Stage c o no client before tables alone e (n + 1)

namespace Stage

variable {before : List (Signal ε α)} {tables : Pool} {alone : Prop}

theorem withBackground (h : Stage c o no client before tables alone b n) (place : Bool) :
    Stage c o no client before tables alone { b with background := place } n := by
  cases h with
  | asking _ since hgo hstop htold hpool => exact .asking n since hgo hstop htold hpool
  | pausing _ wake hgo hstop htold hpool => exact .pausing n wake hgo hstop htold hpool
  | granted n s flag hgo hanswer hstop htold => exact .granted n s flag hgo hanswer hstop htold
  | refused n error hgo hlast hanswer hstop htold hpool =>
    exact .refused n error hgo hlast hanswer hstop htold hpool

/-- The call is where it was after a move that it does not make. -/
theorem rests (h : Stage c o no client before tables alone b n)
    (hstop : e.itinerary.stop? no = b.itinerary.stop? no) (htold : e.toldOf no = b.toldOf no)
    (hpool : alone → e.pool = b.pool) : Stage c o no client before tables alone e n := by
  cases h with
  | asking _ since hgo hstop' htold' hpool' =>
    exact .asking n since hgo (hstop.trans hstop') (htold.trans htold') fun h => (hpool h).trans (hpool' h)
  | pausing _ wake hgo hstop' htold' hpool' =>
    exact .pausing n wake hgo (hstop.trans hstop') (htold.trans htold') fun h =>
      (hpool h).trans (hpool' h)
  | granted n s flag hgo hanswer hstop' htold' =>
    exact .granted n s flag hgo hanswer (hstop ▸ hstop') (htold.trans htold')
  | refused n error hgo hlast hanswer hstop' htold' hpool' =>
    exact .refused n error hgo hlast hanswer (hstop.trans hstop') (htold.trans htold') fun h =>
      (hpool h).trans (hpool' h)

/-- The answer to a creation ends the acquisition if the loop stops with it, and is followed by another creation
otherwise. -/
theorem answered {b₁ : Engine ε α} {since : Nat} (hgo : c.GoesPast o n)
    (hstop : b.itinerary.stop? call.no = some (.creating client ⟨n + 1, true⟩ since))
    (htold : b.toldOf call.no = before ++ List.replicate (n + 1) (.createBegun call.no))
    (hpool : alone → b.pool = tables) (hstands : StandsBy call.no b b₁) (hopen : b.pool.closed = false)
    (hne : o n ≠ .error .cancelled)
    (huncancelled : (b₁.created c call client ⟨n + 1, true⟩ (o n)).isCancelled call.token = false) :
    Stage c o call.no client before tables alone (b₁.created c call client ⟨n + 1, true⟩ (o n)) (n + 1) := by
  have hstop₁ := hstands.itinerary.trans hstop
  -- the loop has gone past this attempt, too, unless it stops there
  have hgo' : ¬ c.StopsAt o (n + 1) → c.GoesPast o (n + 1) := by
    intro hlast j hpos hle
    rcases Nat.le_succ_iff.mp hle with hle | rfl
    · exact hgo j hpos hle
    · exact hlast
  cases hanswer : o n with
  | ok s =>
    have hopen₁ : b₁.pool.closed = false := by rw [hstands.pool, hopen]
    obtain ⟨p, hoperating, hgoes⟩ :=
      goesOn_created_ok hstop₁ hopen₁ c client ⟨n + 1, true⟩ s
    refine .granted n s b₁.nextNo hgo hanswer ?_ ?_
    · rw [hgoes.stop]
      exact hoperating
    · rw [hgoes.told, hstands.told, htold]
  | error error =>
    rw [hanswer] at huncancelled
    have hne' : error ≠ .cancelled := fun heq => hne (heq ▸ hanswer)
    rcases goesOn_created_error hstop₁ client hanswer hne' huncancelled with
      ⟨hlast, hgoes⟩ | ⟨hmore, hgoes | ⟨wake, hgoes⟩⟩
    all_goals replace hgoes := hgoes.after hstands
    · refine .refused n error hgo hlast hanswer hgoes.stop (by rw [hgoes.told, htold]) fun halone => ?_
      rw [hgoes.pool, hstands.pool, hpool halone]
    · refine .asking (n + 1) b₁.now (hgo' hmore) hgoes.stop ?_ fun halone => ?_
      · rw [hgoes.told, htold, List.append_assoc, ← List.replicate_succ']
      · rw [hgoes.pool, hstands.pool, hpool halone]
    · refine .pausing (n + 1) wake (hgo' hmore) hgoes.stop ?_ fun halone => ?_
      · rw [hgoes.told, htold, List.append_nil]
      · rw [hgoes.pool, hstands.pool, hpool halone]

/-- A call that has had its session does not go on, unless its operation ends. -/
theorem not_moves (hrest : ∀ p ∈ b.itinerary.stop? no, p.isOperating = true) (hb : b.Assigned no token)
    (hstep : b.step c m = some e) (hgo : e.isCancelled token = false) (hfits : Fits o no n m) :
    m.call? ≠ some no := by
  have hgo₀ : b.isCancelled token = false := (leadsTo_of_step hstep).descends.isCancelled hgo
  exact not_moves_of_operating hrest (fun k hk hno => by rw [hb.token_eq k hk hno, hgo₀]) hstep hfits.stays
    hfits.works

/-- Every move leaves the call where it is or takes it on by one answer at most.  The call has not been cancelled
after the move, and the pool was open before it. -/
theorem step (h : Stage c o no client before tables alone b n) (hb : b.Assigned no token)
    (hstep : b.step c m = some e) (hgo : e.isCancelled token = false) (hopen : b.pool.closed = false)
    (hne : o n ≠ .error .cancelled) (hfits : Fits o no n m)
    (halone : alone → m.call? = some no ∨ (m.passes?).isSome = true) :
    Stage c o no client before tables alone e (n + (m.answer? no).toList.length) := by
  by_cases hmoves : m.call? = some no
  -- a call that is not cancelled after the move was not cancelled before it
  · have hgo₀ : ∀ k, b.call? k.no = some k → k.no = no → b.isCancelled k.token = false := by
      intro k hk hno
      rw [hb.token_eq k (mem_of_call? hk).1 hno]
      exact (leadsTo_of_step hstep).descends.isCancelled hgo
    cases h with
    | asking _ since hgoes hstop htold hpool =>
      obtain ⟨k, hk, rfl, hpoint⟩ := call_of_stop? hstop rfl
      obtain ⟨b₁, result, hstands, hresult, rfl⟩ :=
        answered_of_step hk hpoint (hgo₀ k hk rfl) hstep hmoves hfits.stays
      obtain rfl := hfits.answer result hresult
      rw [hresult]
      refine answered hgoes hstop htold hpool hstands hopen hne ?_
      rw [hb.token_eq k (mem_of_call? hk).1 rfl, hgo]
    | pausing _ wake hgoes hstop htold hpool =>
      obtain ⟨k, hk, rfl, hpoint⟩ := call_of_stop? hstop rfl
      obtain ⟨hresult, rfl⟩ := woken_of_step hk hpoint (hgo₀ k hk rfl) hstep hmoves hfits.stays
      rw [hresult, Setup.next_of_goesPast hgoes]
      have hgoesOn := goesOn_attempt hstop c client ⟨n + 1, true⟩
      refine .asking n b.now hgoes hgoesOn.stop ?_ fun h => hgoesOn.pool.trans (hpool h)
      rw [hgoesOn.told, htold, List.append_assoc, ← List.replicate_succ']
    | granted n s flag hgoes hok hstop htold =>
      exact absurd hmoves (not_moves hstop hb hstep hgo hfits)
    | refused n error hgoes hlast herror hstop htold hpool =>
      exact absurd hmoves (not_moves (fun p hp => by rw [hstop] at hp; cases hp) hb hstep hgo hfits)
  · rw [Move.answer?_of_other hmoves]
    refine h.rests (stop?_of_other hb.no_lt hstep hmoves) (toldOf_of_other hb.orderly hstep hmoves) fun h => ?_
    obtain ⟨millis, hpasses⟩ := Option.isSome_iff_exists.mp ((halone h).resolve_left hmoves)
    exact (aside_of_step hpasses hstep).pool

/-- The tables are those of any moment at which the call still waits for a session. -/
theorem rebased (h : Stage c o no client before tables alone e n) :
    (∀ p ∈ e.itinerary.stop? no, p.isOperating = true) ∨ Stage c o no client before e.pool True e n := by
  cases h with
  | asking _ since hgoes hstop htold => exact Or.inr (.asking n since hgoes hstop htold fun _ => rfl)
  | pausing _ wake hgoes hstop htold => exact Or.inr (.pausing n wake hgoes hstop htold fun _ => rfl)
  | granted n s flag hgoes hanswer hstop => exact Or.inl hstop
  | refused n error hgoes hlast hanswer hstop => exact Or.inl fun p hp => by rw [hstop] at hp; cases hp

/-- A move of the call in which no session is created registers none, and retires none. -/
theorem keeps_tables (h : Stage c o no client before tables alone b n) (hb : b.Assigned no token)
    (hstep : b.step c m = some e) (hgo : e.isCancelled token = false) (hopen : b.pool.closed = false)
    (hne : o n ≠ .error .cancelled) (hfits : Fits o no n m)
    (hnone : ∀ i < n + (m.answer? no).toList.length, ∀ s, o i ≠ .ok s) (hmoves : m.call? = some no) :
    e.pool.idle = b.pool.idle ∧ e.pool.active = b.pool.active := by
  rcases h.rebased with hrest | h
  · exact absurd hmoves (not_moves hrest hb hstep hgo hfits)
  · have hmoved := h.step hb hstep hgo hopen hne hfits fun _ => Or.inl hmoves
    generalize n + (m.answer? no).toList.length = n' at hmoved hnone
    cases hmoved with
    | asking _ since hgoes hstop htold hpool | pausing _ wake hgoes hstop htold hpool =>
      rw [hpool trivial]
      exact ⟨rfl, rfl⟩
    | granted n s flag hgoes hanswer => exact absurd hanswer (hnone n (Nat.lt_succ_self n) s)
    | refused n error hgoes hlast hanswer hstop htold hpool =>
      rw [hpool trivial]
      exact ⟨rfl, rfl⟩

end Stage

/-! ## Runs -/

/-- In no move of the call in a run it changes which sessions are tracked and which of them are idle. -/
def RegistersNothing (c : Setup) (no : TaskNo) : Engine ε α → List (Bool × Move ε α) → Prop
  | _, [] => True
  | e, y :: ys => ∀ e₁, e.stepAt c y = some e₁ →
      (y.2.call? = some no → e₁.pool.idle = e.pool.idle ∧ e₁.pool.active = e.pool.active) ∧
        RegistersNothing c no e₁ ys

variable {before : List (Signal ε α)} {tables : Pool} {alone : Prop} {ys : List (Bool × Move ε α)}

theorem isOpen_of_run (hrun : b.run c ys = some e) (hopen : e.pool.closed = false) :
    b.pool.closed = false := by
  rw [← Bool.not_eq_true]
  intro hclosed
  rw [(closed_of_run hclosed hrun).1] at hopen
  cases hopen

/-- Every run takes the call on by as many answers as it gives, and if no session is created in it, none is
registered for the call. -/
theorem Stage.run (h : Stage c o no client before tables alone b n) (hb : b.Assigned no token)
    (hrun : b.run c ys = some e) (hscript : Scripted o no token n ys e) (hne : ∀ i, o i ≠ .error .cancelled)
    (halone : alone → ∀ y ∈ ys, y.2.call? = some no ∨ (y.2.passes?).isSome = true) :
    Stage c o no client before tables alone e (n + (answersTo no ys).length) ∧ e.Assigned no token ∧
      ((∀ i < n + (answersTo no ys).length, ∀ s, o i ≠ .ok s) → RegistersNothing c no b ys) := by
  induction ys generalizing b n with
  | nil =>
    cases hrun
    exact ⟨h, hb, fun _ => trivial⟩
  | cons y ys ih =>
    have hopen := isOpen_of_run hrun hscript.isOpen
    obtain ⟨b₁, hstep, hrest⟩ := Option.bind_eq_some_iff.mp hrun
    obtain ⟨hfits, hlater⟩ := hscript.uncons
    have hgo := Execution.isCancelled_of_run hrest hscript.uncancelled
    have hplaced := hb.withBackground y.1
    have hmoved := (h.withBackground y.1).step hplaced hstep hgo hopen (hne n) hfits
      fun h => halone h y List.mem_cons_self
    obtain ⟨hlast, hassigned, hnothing⟩ := ih hmoved (hplaced.step hstep) hrest hlater
      fun h y' hy' => halone h y' (List.mem_cons_of_mem _ hy')
    rw [answersTo_cons, List.length_append, ← Nat.add_assoc]
    refine ⟨hlast, hassigned, fun hnone b₂ hstep₂ => ?_⟩
    obtain rfl := Option.some.inj (hstep.symm.trans hstep₂)
    refine ⟨fun hmoves => ?_, hnothing hnone⟩
    exact (h.withBackground y.1).keeps_tables hplaced hstep hgo hopen (hne n) hfits
      (fun i hi => hnone i (by omega)) hmoves

end Engine

end PooledSessions
