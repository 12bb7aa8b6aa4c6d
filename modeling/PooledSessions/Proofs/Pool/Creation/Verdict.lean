import PooledSessions.Proofs.Pool.Creation.Stages
/-!
# How the creation of a session ends

When an acquisition is admitted and no session is idle, the server is asked for the first time
(`Engine.toldOf_of_creating`).  From then on the answers decide: the server is asked up to the first attempt that
concludes, and the client gets the session of that attempt or is told its error
(`Engine.creation_ends_as_answered`).  Until then the acquisition can always be brought to an end by answers, and
by waiting for the delays between them (`Engine.Stage.canEnd`).
-/

namespace PooledSessions

variable {ε α : Type}

namespace Engine

variable {c : Setup} {b e e' : Engine ε α} {m : Move ε α} {no : TaskNo} {token : Token} {client : Client}
  {a : Attempt} {o : Nat → Except RpcError SessionInfo} {n : Nat} {before : List (Signal ε α)}
  {tables : Pool} {alone : Prop}

/-! ## Admission -/

/-- A leg that ends where the server is to create a session has asked it for that. -/
theorem asked_of_creating {now : Nat} {answered : Bool} {q p : Point} {asked : List Request}
    (h : Leg c now answered q asked (some p)) (hp : p.isCreating = true) : .create ∈ asked := by
  have hleases : ∀ {client asked}, Leases now client asked (some p) → .create ∈ asked := by
    rintro _ _ ⟨⟩
    cases hp
  have hacquires : ∀ {client asked}, Acquires now client asked (some p) → .create ∈ asked := by
    rintro _ _ (h | _)
    · exact hleases h
    · exact List.mem_singleton_self _
  have hretries : ∀ {client a asked}, Retries c now client a asked (some p) → .create ∈ asked := by
    rintro _ _ _ (_ | _ | _)
    · exact List.mem_singleton_self _
    · cases hp
  cases h with
  | acquires h | executes _ h | repeats _ _ _ _ h | resumes _ _ h => exact hacquires h
  | created _ _ _ h => exact hleases h
  | refused _ _ _ h => exact hretries h
  | givesUp _ _ _ h => exact List.mem_cons_of_mem _ (hretries h)
  | recreates => exact List.mem_singleton_self _
  | pauses => cases hp
  | closes _ hp' =>
    cases p with
    | creating _ _ _ => cases hp'
    | _ => cases hp

/-- What is asked for the calls is told of them. -/
theorem requests_of_told {more : List (Signal ε α)} (htold : e'.course.told = e.course.told ++ more) :
    e'.itinerary.requests = e.itinerary.requests ++ more.filterMap Signal.request? := by
  have hrequests : ∀ e : Engine ε α, e.signals.filterMap Signal.request? =
      e.course.told.filterMap Signal.request? :=
    filterMap_signals fun s hs => by cases s <;> first | rfl | cases hs
  rw [itinerary, itinerary, hrequests, hrequests, htold, List.filterMap_append]

variable [PooledError ε]

/-- A call that waits for the server to create a session after a move of its own has asked it for that in the
move, and nothing else has been told of the call. -/
theorem toldOf_of_creating (hb : b.Orderly) (hstep : b.step c m = some e) (hmoves : m.call? = some no)
    {since : Nat} (hstop : e.itinerary.stop? no = some (.creating client a since)) :
    e.toldOf no = b.toldOf no ++ [.createBegun no] := by
  have hasked : ∃ asked : List Request, .create ∈ asked ∧
      e.itinerary.requests = b.itinerary.requests ++ asked.map fun r => (no, r) := by
    cases travels_of_step hstep with
    | stays hm => rw [hm] at hmoves; cases hmoves
    | comes purpose token hm => rw [hm] at hmoves; cases hmoves
    | goes k hk hm asked p hleg hi =>
      obtain rfl : k.no = no := Option.some.inj (hm.symm.trans hmoves)
      have hq : b.itinerary.stop? k.no = some k.point.roused := by
        rw [stop?_itinerary, hk]
        rfl
      rw [hi, Itinerary.stop?_go hq] at hstop
      obtain ⟨p, rfl, hp⟩ := Option.map_eq_some_iff.mp hstop
      refine ⟨asked, asked_of_creating hleg ?_, by rw [hi]; rfl⟩
      cases p <;> first | rfl | cases hp
  obtain ⟨asked, hin, hrequests⟩ := hasked
  -- what stands aside asks for no creation, so it is the last thing told that does
  have hcreates : ∀ more : List (Signal ε α), e.course.told = b.course.told ++ more →
      .createBegun no ∈ more := by
    intro more htold
    rw [requests_of_told htold, List.append_cancel_left_eq] at hrequests
    have hrequest : (no, Request.create) ∈ more.filterMap Signal.request? :=
      hrequests ▸ List.mem_map_of_mem hin
    obtain ⟨s, hs, heq⟩ := List.mem_filterMap.mp hrequest
    cases s with
    | createBegun call => rwa [show call = no from (Prod.mk.inj (Option.some.inj heq)).1] at hs
    | _ => cases heq
  rcases outcome_of_step hb hstep with ⟨purpose, token, rfl, rfl⟩ | houtcome
  · cases hmoves
  · cases houtcome with
    | silent hsettles _ =>
      obtain ⟨more, htold, hmore⟩ := hsettles.told
      exact absurd (hmore _ (hcreates more htold)) Bool.false_ne_true
    | @telling e₁ s call hmover hsettles hsays =>
      obtain ⟨more, htold, hmore⟩ := hsettles.told
      rw [← toldOf_of_aside htold hmore no]
      cases hofCall : s.ofCall with
      | false =>
        have hsame : (e₁.tell s).course = e₁.course := course_tellAll (by simpa using hofCall) e₁
        exact absurd (hmore _ (hcreates more (by rw [hsame, htold]))) Bool.false_ne_true
      | true =>
        have hlast := hcreates (more ++ [s]) (by rw [course_tell hofCall, htold, List.append_assoc])
        rcases List.mem_append.mp hlast with hin | hin
        · exact absurd (hmore _ hin) Bool.false_ne_true
        · obtain rfl := List.mem_singleton.mp hin
          exact toldOf_tell (by simp [Signal.tellsOf]) e₁

/-! ## Undisturbed moves -/

omit [PooledError ε] in
/-- An observer of the records cancels nobody's token but the one that he was given. -/
theorem isCancelled_observe (hobserver : ∀ x ∈ c.observer, x.token ≠ token) (e : Engine ε α) :
    (e.observe c .creation).isCancelled token = e.isCancelled token := by
  have hcancel : ∀ (e : Engine ε α) (t : Token), t ≠ token → (e.cancel t).isCancelled token =
      e.isCancelled token := by
    intro e t hne
    unfold cancel
    split
    · rfl
    · simp [isCancelled, hne.symm]
  unfold observe
  cases hseen : c.observer with
  | none => rfl
  | some x =>
    dsimp only
    split
    · exact hcancel _ _ (hobserver x hseen)
    · rfl

omit [PooledError ε] in
theorem isCancelled_assess (hobserver : ∀ x ∈ c.observer, x.token ≠ token) (e : Engine ε α) (f : Fault)
    (a : Attempt) : (e.assess c .creation f a).2.isCancelled token = e.isCancelled token := by
  unfold assess
  dsimp only
  -- the assessment is only named here: what it draws at random must not be computed
  generalize Executor.assess _ f a e.generator = assessed
  rw [isCancelled_observe hobserver, isCancelled, isCancelled]

theorem closed_followCreation (e : Engine ε α) (c : Setup) (no : TaskNo) (client : Client)
    (next : Loop.Next RpcError) : (e.followCreation c no client next).pool.closed = e.pool.closed := by
  have hreject : ∀ (e : Engine ε α) (p : PoolError), (e.reject no client p).pool = e.pool := by
    intro e p
    rw [reject_eq]
    rfl
  cases next with
  | attempt a | pause a wake => rfl
  | fail error => cases error <;> exact (congrArg Pool.closed (hreject _ _)).trans rfl

/-- The server's answer cancels nothing, and leaves the pool open. -/
theorem undisturbed_created (hobserver : ∀ x ∈ c.observer, x.token ≠ token) (hopen : e.pool.closed = false)
    (call : Call) (client : Client) (a : Attempt) (result : Except RpcError SessionInfo) :
    (e.created c call client a result).isCancelled token = e.isCancelled token ∧
      (e.created c call client a result).pool.closed = false := by
  cases result with
  | ok s =>
    have heq : e.created c call client a (.ok s) =
        ((e.numbered.releasePending.enrolled s e.nextNo).report .pool .debug "session created"
          [("session_id", s.id.text), ("node_id", toString s.node)]).lease call.no client
            ⟨s.id, s.node, e.nextNo⟩ := by
      rw [created, register_eq, hopen, if_neg Bool.false_ne_true]
    rw [heq]
    cases client <;> exact ⟨rfl, hopen⟩
  | error error =>
    have hpool : (e.assess c .creation (.rpc error) a).2.pool = e.pool :=
      congrArg Ledger.pool (ledger_assess e c .creation (.rpc error) a)
    rw [created_error, isCancelled, cancelled_followCreation, closed_followCreation, hpool]
    exact ⟨isCancelled_assess hobserver e _ a, hopen⟩

/-! ## Creations can be brought to an end -/

/-- A move that brings the creation of a session for the call to an end: the server answers, the delay of the call
has passed, or the clock goes on. -/
def Furthers (no : TaskNo) (m : Move ε α) : Prop :=
  m = .woken no ∨ (∃ r, m = .created no r) ∨ ∃ millis, m = .advance millis

/-- The acquisition can be brought to an end, if `n` of its creations have been answered as in `o`. -/
def CanEnd (c : Setup) (o : Nat → Except RpcError SessionInfo) (no : TaskNo) (token : Token) (n : Nat)
    (e : Engine ε α) : Prop :=
  ∃ zs e', e.run c zs = some e' ∧ (∀ z ∈ zs, Furthers no z.2) ∧ Scripted o no token n zs e' ∧
    ∀ p ∈ e'.itinerary.stop? no, p.isOperating = true

omit [PooledError ε] in
theorem Furthers.fits (h : Furthers no m) (hanswer : ∀ r ∈ m.answer? no, r = o n) : Fits o no n m := by
  refine ⟨hanswer, ?_, fun cancels result => ?_⟩
  all_goals rcases h with rfl | ⟨r, rfl⟩ | ⟨millis, rfl⟩ <;> exact nofun

theorem CanEnd.of_step {y : Bool × Move ε α} {e₁ : Engine ε α} (hstep : e.stepAt c y = some e₁)
    (hy : Furthers no y.2) (hanswer : ∀ r ∈ y.2.answer? no, r = o n)
    (h : CanEnd c o no token (n + (y.2.answer? no).toList.length) e₁) : CanEnd c o no token n e := by
  obtain ⟨zs, e', hrun, hzs, hscript, hrest⟩ := h
  exact ⟨y :: zs, e', by rw [run, hstep, Option.bind_some, hrun], List.forall_mem_cons.mpr ⟨hy, hzs⟩,
    .cons (hy.fits hanswer) hscript, hrest⟩

/-- An acquisition that has ended need not be brought to an end. -/
theorem CanEnd.of_ended (hgo : e.isCancelled token = false) (hopen : e.pool.closed = false)
    (hrest : ∀ p ∈ e.itinerary.stop? no, p.isOperating = true) : CanEnd c o no token n e :=
  ⟨[], e, rfl, by simp, ⟨rfl, by simp, by simp, hgo, hopen⟩, hrest⟩

/-- When the delay of a call has passed, the server is asked once more. -/
theorem CanEnd.of_pausing (h : Stage c o no client before tables alone e n) (hb : e.Assigned no token)
    (hgo : e.isCancelled token = false) (hopen : e.pool.closed = false) (hne : o n ≠ .error .cancelled)
    {a : Attempt} {wake : Nat} (hstop : e.itinerary.stop? no = some (.createPause client a wake))
    (hasking : ∀ e' since, Stage c o no client before tables alone e' n → e'.Assigned no token →
      e'.isCancelled token = false → e'.pool.closed = false →
      e'.itinerary.stop? no = some (.creating client a.next since) → CanEnd c o no token n e') :
    CanEnd c o no token n e := by
  obtain ⟨k, hk, rfl, hpoint⟩ := call_of_stop? hstop rfl
  have hadvances : Furthers k.no (.advance wake : Move ε α) := Or.inr (Or.inr ⟨wake, rfl⟩)
  have hwakes : Furthers k.no (.woken k.no : Move ε α) := Or.inl rfl
  -- the clock is put past the delay, and the call is woken then
  let later : Engine ε α := { e with background := true, now := e.now + wake }
  have hlater : e.stepAt c (true, .advance wake) = some later := rfl
  have hstage : Stage c o k.no client before tables alone later n :=
    (h.withBackground true).step (hb.withBackground true) hlater hgo hopen hne
      (hadvances.fits (by simp [Move.answer?])) fun _ => Or.inr rfl
  have hassigned := (hb.withBackground true).step hlater
  have hmove : later.stepAt c (true, .woken k.no) =
      some (later.followCreation c k.no client (.attempt a.next)) := by
    have hfind : later.call? k.no = some k := hk
    have hdue : wake ≤ later.now := Nat.le_add_left wake e.now
    have hgo' : later.isCancelled k.token = false := by
      rw [hb.token_eq k (mem_of_call? hk).1 rfl]
      exact hgo
    show later.step c (.woken k.no) = _
    simp only [step, hfind, Option.bind_eq_bind, Option.bind_some, woken, hpoint, if_pos hdue, hgo',
      Bool.false_eq_true, if_false]
    rfl
  have hwoken := hstage.step hassigned hmove hgo hopen hne (hwakes.fits (by simp [Move.answer?])) fun _ =>
    Or.inl rfl
  refine .of_step hlater hadvances (by simp [Move.answer?]) ?_
  refine .of_step hmove hwakes (by simp [Move.answer?]) ?_
  exact hasking _ _ hwoken (hassigned.step hmove) hgo hopen
    (goesOn_attempt (e := later) hstop c client a.next).stop

/-- When the server has answered, the next stage is reached. -/
theorem CanEnd.of_asking (h : Stage c o no client before tables alone e n) (hb : e.Assigned no token)
    (hgo : e.isCancelled token = false) (hopen : e.pool.closed = false) (hne : o n ≠ .error .cancelled)
    (hobserver : ∀ x ∈ c.observer, x.token ≠ token) {a : Attempt} {since : Nat}
    (hstop : e.itinerary.stop? no = some (.creating client a since))
    (hnext : ∀ e', Stage c o no client before tables alone e' (n + 1) → e'.Assigned no token →
      e'.isCancelled token = false → e'.pool.closed = false → CanEnd c o no token (n + 1) e') :
    CanEnd c o no token n e := by
  obtain ⟨k, hk, rfl, hpoint⟩ := call_of_stop? hstop rfl
  let placed : Engine ε α := { e with background := true }
  have hmove : e.stepAt c (true, .created k.no (o n)) = some (placed.created c k client a (o n)) := by
    have hfind : placed.call? k.no = some k := hk
    have hgo' : placed.isCancelled k.token = false := by
      rw [hb.token_eq k (mem_of_call? hk).1 rfl]
      exact hgo
    show placed.step c (.created k.no (o n)) = _
    simp only [step, hfind, Option.bind_eq_bind, Option.bind_some, hpoint, hgo', Bool.false_eq_true, if_false]
  obtain ⟨hsame, hopen'⟩ := undisturbed_created (e := placed) hobserver hopen k client a (o n)
  have hanswer : (Move.created k.no (o n) : Move ε α).answer? k.no = some (o n) := if_pos rfl
  have hanswers : Furthers k.no (.created k.no (o n) : Move ε α) := Or.inr (Or.inl ⟨o n, rfl⟩)
  have hanswered := (h.withBackground true).step (hb.withBackground true) hmove (hsame.trans hgo) hopen hne
    (hanswers.fits (by simp [hanswer])) fun _ => Or.inl rfl
  rw [hanswer] at hanswered
  refine .of_step hmove hanswers (by simp [hanswer]) ?_
  rw [hanswer]
  exact hnext _ hanswered ((hb.withBackground true).step hmove) (hsame.trans hgo) hopen'

/-- The acquisition can be brought to an end wherever it stands. -/
theorem Stage.canEnd (hne : ∀ i, o i ≠ .error .cancelled) (hobserver : ∀ x ∈ c.observer, x.token ≠ token)
    (h : Stage c o no client before tables alone e n) (hb : e.Assigned no token)
    (hgo : e.isCancelled token = false) (hopen : e.pool.closed = false) : CanEnd c o no token n e := by
  induction hleft : c.creation.policy.maxAttempts - n using Nat.strong_induction_on generalizing n e with
  | _ left ih =>
    -- each answer takes from the number of attempts that are left
    have hasking : n < c.creation.policy.maxAttempts → ∀ (e : Engine ε α) (a : Attempt) (since : Nat),
        Stage c o no client before tables alone e n → e.Assigned no token → e.isCancelled token = false →
        e.pool.closed = false → e.itinerary.stop? no = some (.creating client a since) →
        CanEnd c o no token n e := by
      intro hmore e a since h hb hgo hopen hstop
      refine .of_asking h hb hgo hopen (hne n) hobserver hstop fun e' h' hb' hgo' hopen' => ?_
      exact ih _ (by omega) h' hb' hgo' hopen' rfl
    have hstage := h
    cases h with
    | asking _ since hgoes hstop =>
      exact hasking (Setup.lt_maxAttempts hgoes) e _ since hstage hb hgo hopen hstop
    | pausing _ wake hgoes hstop =>
      exact .of_pausing hstage hb hgo hopen (hne n) hstop fun e' since h' hb' hgo' hopen' hstop' =>
        hasking (Setup.lt_maxAttempts hgoes) e' _ since h' hb' hgo' hopen' hstop'
    | granted n s flag hgoes hanswer hstop => exact .of_ended hgo hopen hstop
    | refused n error hgoes hlast hanswer hstop =>
      exact .of_ended hgo hopen fun p hp => by rw [hstop] at hp; cases hp

/-! ## How the acquisition ends -/

omit [PooledError ε] in
/-- A call waits at one point. -/
theorem hasCreation_iff (he : e.Orderly) :
    e.HasCreation no ↔ ∃ p ∈ e.itinerary.stop? no, p.creates = true := by
  have hroused : ∀ p : Point, p.roused.creates = p.creates := fun p => by cases p <;> rfl
  constructor
  · rintro ⟨k, hk, rfl, hcreates⟩
    refine ⟨k.point.roused, ?_, (hroused _).trans hcreates⟩
    rw [stop?_itinerary, call?_of_mem he.nodup hk]
    rfl
  · rintro ⟨p, hp, hcreates⟩
    have hcloses : p.closes = false := by cases p <;> first | rfl | cases hcreates
    obtain ⟨k, hk, hno, rfl⟩ := call_of_stop? hp hcloses
    exact ⟨k, (mem_of_call? hk).1, hno, hcreates⟩

omit [PooledError ε] in
theorem not_hasCreation_of_operating (he : e.Orderly)
    (hrest : ∀ p ∈ e.itinerary.stop? no, p.isOperating = true) : ¬ e.HasCreation no := by
  rw [hasCreation_iff he]
  rintro ⟨p, hp, hcreates⟩
  have hoperating := hrest p hp
  cases p with
  | operating a h since => cases hcreates
  | _ => cases hoperating

/-- As long as the call waits for its session, the answers so far are not the last ones.  Afterwards they are, and
the call has asked for as many sessions. -/
theorem Stage.concluded (h : Stage c o no client before tables alone e n) (he : e.Orderly) {last : Nat}
    (hgo : c.GoesPast o last) (hlast : c.StopsAt o (last + 1)) :
    (e.HasCreation no ∧ n ≤ last) ∨
      (¬ e.HasCreation no ∧ n = last + 1 ∧ ∃ result,
        e.toldOf no = before ++ List.replicate (last + 1) (.createBegun no) ++ [result] ∧
        (∀ s, o last = .ok s → ∃ flag, result = grant no client ⟨s.id, s.node, flag⟩) ∧
        ∀ error, o last = .error error →
          result = refusal no client (.creationFailed error (c.usedUp error)) ∧
          (alone → e.pool = tables.releasePending)) := by
  have hwaits : ∀ {p : Point}, e.itinerary.stop? no = some p → p.creates = true →
      c.GoesPast o n → e.HasCreation no ∧ n ≤ last := by
    intro p hstop hcreates hgoes
    refine ⟨(hasCreation_iff he).mpr ⟨p, hstop, hcreates⟩, ?_⟩
    by_contra hlt
    exact hgoes (last + 1) (Nat.succ_pos last) (by omega) hlast
  -- creations that have ended have done so with the first attempt at which the loop stops
  have hends : ∀ {n : Nat}, c.GoesPast o n → c.StopsAt o (n + 1) → n = last := by
    intro n hgoes hstops
    refine Nat.le_antisymm ?_ ?_
    · by_contra hlt
      exact hgoes (last + 1) (Nat.succ_pos last) (by omega) hlast
    · by_contra hlt
      exact hgo (n + 1) (Nat.succ_pos n) (by omega) hstops
  cases h with
  | asking _ since hgoes hstop => exact Or.inl (hwaits hstop rfl hgoes)
  | pausing _ wake hgoes hstop => exact Or.inl (hwaits hstop rfl hgoes)
  | granted n s flag hgoes hanswer hstop htold =>
    obtain rfl := hends hgoes (Setup.stopsAt_iff.mpr (Or.inl ⟨s, hanswer⟩))
    refine Or.inr ⟨not_hasCreation_of_operating he hstop, rfl, _, htold, fun s' hok => ?_, fun error herror => ?_⟩
    · cases hanswer.symm.trans hok
      exact ⟨flag, rfl⟩
    · cases hanswer.symm.trans herror
  | refused n error hgoes hstops hanswer hstop htold hpool =>
    obtain rfl := hends hgoes hstops
    refine Or.inr ⟨?_, rfl, _, htold, fun s hok => ?_, fun error' herror => ?_⟩
    · exact not_hasCreation_of_operating he fun p hp => by rw [hstop] at hp; cases hp
    · cases hanswer.symm.trans hok
    · cases hanswer.symm.trans herror
      exact ⟨rfl, hpool⟩

/-- What becomes of an acquisition for which the pool has room but no idle session is decided by the answers to
its creations alone, whatever else goes on, as long as the call is neither cancelled nor dropped and the pool is
not closed.  The server is asked up to the first attempt that concludes, and no more often.  The client is
granted a lease on the session of that attempt if it has succeeded, and is told its error otherwise, together
with whether only the budget of attempts has made it the last one.  In that case the call has registered
nothing: if nothing else has moved meanwhile, all that has changed of the tables is that its place has been given
back.  The acquisition can be brought to its end by answers and by waiting. -/
theorem creation_ends_as_answered (c : Setup) (g : Generator) (xs ys : List (Bool × Move ε α))
    (x : Bool × Move ε α) (b e₀ e : Engine ε α) (call : Call) (client : Client) (since : Nat)
    (o : Nat → Except RpcError SessionInfo) (hrun : (fresh g).run c xs = some b)
    (hstep : b.stepAt c x = some e₀) (hmoves : x.2.call? = some call.no) (hcall : call ∈ e₀.calls)
    (hpoint : call.point = .creating client (.first true) since) (hlater : e₀.run c ys = some e)
    (hscript : Scripted o call.no call.token 0 ys e) (hne : ∀ i, o i ≠ .error .cancelled) :
    ∃ k, IsLeast {k | 1 ≤ k ∧ c.Concludes o k} k ∧
      (e.HasCreation call.no → (answersTo call.no ys).length < k ∧
        ((∀ x ∈ c.observer, x.token ≠ call.token) → ∃ zs e', e.run c zs = some e' ∧
          (∀ z ∈ zs, Furthers call.no z.2) ∧ Scripted o call.no call.token 0 (ys ++ zs) e' ∧
          ¬ e'.HasCreation call.no)) ∧
      (¬ e.HasCreation call.no → (answersTo call.no ys).length = k ∧ ∃ result,
        e.toldOf call.no = b.toldOf call.no ++ List.replicate k (.createBegun call.no) ++ [result] ∧
        (∀ s, o (k - 1) = .ok s → ∃ flag, result = grant call.no client ⟨s.id, s.node, flag⟩) ∧
        ∀ error, o (k - 1) = .error error → ∃ exhausted,
          result = refusal call.no client (.creationFailed error exhausted) ∧
          (PoolError.creationFailed error exhausted).isResourceExhausted = exhausted ∧
          (exhausted = true ↔ k = c.creation.policy.maxAttempts ∧
            ∀ i < c.creation.policy.maxAttempts, ∃ error, o i = .error error ∧
              c.creation.classOf error ≠ .nonRetryable) ∧
          RegistersNothing c call.no e₀ ys ∧
          ((∀ y ∈ ys, y.2.call? = some call.no ∨ (y.2.passes?).isSome = true) →
            e.pool.idle = e₀.pool.idle ∧ e.pool.active = e₀.pool.active ∧
              e.pool.pending + 1 = e₀.pool.pending)) := by
  have hb := (orderly_of_run (orderly_fresh g) hrun).withBackground x.1
  have he₀ : e₀.Orderly := orderly_of_step hb hstep
  have hassigned : e₀.Assigned call.no call.token :=
    ⟨he₀, he₀.no_lt call hcall, fun k hk hno => by rw [List.inj_on_of_nodup_map he₀.nodup hk hcall hno]⟩
  have hstop : e₀.itinerary.stop? call.no = some (.creating client (.first true) since) := by
    rw [stop?_itinerary, call?_of_mem he₀.nodup hcall, Option.map_some, hpoint]
    rfl
  have htold : e₀.toldOf call.no = b.toldOf call.no ++ [.createBegun call.no] :=
    toldOf_of_creating (b := { b with background := x.1 }) hb hstep hmoves hstop
  obtain ⟨last, hgo, hlast, -⟩ := c.creation.exists_first_stop true (creationsOf o)
  -- from the first request on, the call is followed with the tables as the admission has left them
  have hstage : Stage c o call.no client (b.toldOf call.no) e₀.pool
      (∀ y ∈ ys, y.2.call? = some call.no ∨ (y.2.passes?).isSome = true) e₀ 0 :=
    .asking 0 since (fun j hpos hle => absurd hpos (by omega)) hstop htold fun _ => rfl
  obtain ⟨hend, hassigned', hnothing⟩ := hstage.run hassigned hlater hscript hne id
  rw [Nat.zero_add] at hend hnothing
  refine ⟨last + 1, Setup.isLeast_concludes (Executor.isLeast_stops hgo hlast), ?_, ?_⟩
  all_goals rcases hend.concluded hassigned'.orderly hgo hlast with
    ⟨hwaits, hle⟩ | ⟨hended, hcount, result, htold', hok, herror⟩
  · intro _
    refine ⟨Nat.lt_succ_of_le hle, fun hobserver => ?_⟩
    obtain ⟨zs, e', hrun', hzs, hscript', hrest⟩ :=
      hend.canEnd hne hobserver hassigned' hscript.uncancelled hscript.isOpen
    have hzs' := hscript.append (by rwa [Nat.zero_add])
    have he' := orderly_of_run hassigned'.orderly hrun'
    exact ⟨zs, e', hrun', hzs, hzs', not_hasCreation_of_operating he' hrest⟩
  · exact fun h => absurd h hended
  · exact fun h => absurd hwaits h
  · intro _
    refine ⟨hcount, result, htold', hok, fun error hanswer => ?_⟩
    obtain ⟨hresult, htables⟩ := herror error hanswer
    refine ⟨c.usedUp error, hresult, rfl, Setup.usedUp_iff hgo hlast hanswer, hnothing fun i hi s hs => ?_,
      fun halone => ?_⟩
    · rcases Nat.lt_succ_iff_lt_or_eq.mp (hcount ▸ hi) with hlt | rfl
      · obtain ⟨error', herror', -⟩ := (Setup.error_of_not_stops (hgo (i + 1) (Nat.succ_pos i) hlt)).2
        cases herror'.symm.trans hs
      · cases hanswer.symm.trans hs
    · have hplace : 1 ≤ e₀.pool.pending := by
        rw [he₀.pending, Call.creations_eq he₀.nodup hcall, hpoint]
        exact Nat.le_add_right 1 _
      rw [htables halone]
      exact ⟨rfl, rfl, Nat.sub_add_cancel hplace⟩

/-- A server that does not answer at first, is not available then, and refuses at last. -/
def failing (i : Nat) : Except RpcError SessionInfo :=
  .error (if i = 0 then creationTimeout else if i = 1 then .status .unavailable "down"
    else .status .badRequest "no")

/-- What becomes of a lease that such a server is asked for. -/
def failingMoves : List (Bool × Move DriverError Int) :=
  [(true, .advance 60000), (true, .createExpired 0), (true, .advance 60000), (true, .woken 0),
    (true, .created 0 (failing 1)), (true, .advance 60000), (true, .woken 0), (true, .created 0 (failing 2))]

/-- The last attempt that the policy allows fails with a final error, and the budget is not said to be used
up. -/
theorem creation_ends_as_answered_of_failing :
    ∃ b e₀ e, (fresh ⟨1⟩).run (.ofConfig {} .standard none) [(true, .call .lease (.unnamed 0))] = some b ∧
      b.stepAt (.ofConfig {} .standard none) (true, .start 0) = some e₀ ∧
      e₀.run (.ofConfig {} .standard none) failingMoves = some e ∧
      (Setup.ofConfig {} .standard none).creation.policy.maxAttempts = 3 ∧
      IsLeast {k | 1 ≤ k ∧ (Setup.ofConfig {} .standard none).Concludes failing k} 3 ∧
      e.toldOf 0 = List.replicate 3 (.createBegun 0) ++
        [refusal 0 .caller (.creationFailed (.status .badRequest "no") false)] ∧
      e.pool.pending + 1 = e₀.pool.pending := by
  obtain ⟨b, e₀, e, hrun, hstep, hlater, hcalls, hended, hgo, hopen, htold⟩ : ∃ b e₀ e,
      (fresh ⟨1⟩).run (.ofConfig {} .standard none) [(true, .call .lease (.unnamed 0))] = some b ∧
      b.stepAt (.ofConfig {} .standard none) (true, .start 0) = some e₀ ∧
      e₀.run (.ofConfig {} .standard none) failingMoves = some e ∧
      e₀.calls = [⟨0, .unnamed 0, 0, .creating .caller (.first true) 0⟩] ∧ e.calls = [] ∧
      e.isCancelled (.unnamed 0) = false ∧ e.pool.closed = false ∧ b.toldOf 0 = [] :=
    ⟨_, _, _, rfl, rfl, rfl, rfl, rfl, rfl, rfl, rfl⟩
  have hscript : Scripted failing 0 (.unnamed 0) 0 failingMoves e :=
    ⟨rfl, by simp [failingMoves], by simp [failingMoves], hgo, hopen⟩
  have hnone : ¬ e.HasCreation 0 := by
    rintro ⟨k, hk, -⟩
    rw [hended] at hk
    cases hk
  obtain ⟨k, hleast, -, hafter⟩ :=
    creation_ends_as_answered (.ofConfig {} .standard none) ⟨1⟩ [(true, .call .lease (.unnamed 0))]
      failingMoves (true, .start 0) b e₀ e ⟨0, .unnamed 0, 0, .creating .caller (.first true) 0⟩ .caller 0
      failing hrun hstep rfl (by rw [hcalls]; exact List.mem_singleton_self _) rfl hlater hscript
      (fun i => by unfold failing creationTimeout; split_ifs <;> simp)
  obtain ⟨hcount, result, htold', -, herror⟩ := hafter hnone
  obtain rfl : 3 = k := hcount
  obtain ⟨exhausted, rfl, -, hexhausted, -, htables⟩ := herror (.status .badRequest "no") rfl
  have hfinal : exhausted = false := by
    rw [← Bool.not_eq_true, hexhausted]
    rintro ⟨-, hall⟩
    obtain ⟨error, herror', hclass⟩ := hall 2 (by decide)
    cases herror'
    exact hclass rfl
  rw [htold, List.nil_append, hfinal] at htold'
  exact ⟨b, e₀, e, hrun, hstep, hlater, rfl, hleast, htold',
    (htables (by simp [failingMoves, Move.call?, Move.passes?])).2.2⟩

end Engine

end PooledSessions
