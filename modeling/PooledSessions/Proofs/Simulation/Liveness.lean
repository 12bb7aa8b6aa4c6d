import PooledSessions.Proofs.Simulation.Vigilance
/-!
# The flags and the server agree at rest

A world is at rest when all its monitors wait (`World.Resting`).  Then the flag of each tracked session
agrees with the server (`World.isAlive_iff_fit`).  A session that is handed out at rest is fit for use, or is
new; and a session that can be used stays so until the server loses it (`World.Loses`): because it is killed,
by somebody at the server or by an operation that fails because the session is gone, or because the pool
deletes it.
-/

namespace PooledSessions

/-! ## Sessions that can be used -/

namespace Cluster

variable {c c' : Cluster} {id k : SessionId}

/-- The server's own answer that a session is not found. -/
theorem isUsable_of_notFound (hscript : c.operationFailures = [])
    (hanswer : (c.operate id).1 = .error (notFound .badSession id)) : c.isUsable id = false := by
  have hoperates := c.operates id
  generalize c.operate id = answered at hoperates hanswer
  cases hoperates with
  | scripted e rest hcons =>
    rw [hscript] at hcons
    cases hcons
  | refused _ hunusable => exact hunusable
  | injected n g =>
    -- a failure that is chosen at random has a message of its own
    have hmessage : "injected failure" = "session " ++ id.text ++ " not found" :=
      (RpcError.status.inj (Except.error.inj hanswer)).2
    have hlist := congrArg String.toList hmessage
    rw [String.toList_append, String.toList_append] at hlist
    exact absurd (List.cons.inj hlist).1 (by decide)
  | succeeds g => cases hanswer

/-- An operation leaves a session usable, unless it fails because this session is gone. -/
theorem isUsable_operate {c : Cluster} {id : SessionId} (husable : c.isUsable id = true) (k : SessionId) :
    (c.operate k).2.isUsable id = true ∨
      (k = id ∧ ∃ error, (c.operate k).1 = .error error ∧ error.isSessionStatus = true) := by
  have hbereft : ∀ {c' : Cluster} (e : RpcError), c'.sessions = c.sessions →
      (c'.bereft k e).isUsable id = true ∨ (k = id ∧ ∃ error,
        (Except.error e : Except RpcError Nat) = .error error ∧ error.isSessionStatus = true) := by
    intro c' e hsessions
    rw [isUsable_bereft, isUsable_of_sessions hsessions]
    by_cases hgone : k = id ∧ e.isSessionStatus = true
    · exact Or.inr ⟨hgone.1, e, rfl, hgone.2⟩
    · exact Or.inl ⟨husable, hgone⟩
  have hoperates := c.operates k
  generalize c.operate k = answered at hoperates ⊢
  cases hoperates with
  | scripted e rest => exact hbereft e rfl
  | refused => exact Or.inl husable
  | injected n g => exact hbereft _ rfl
  | succeeds g => exact Or.inl husable

end Cluster

namespace World

variable {w w' : World} {past : List (SessionId × Option (Except RpcError Unit))}
  {said : List (StreamNo × SessionStatus)} {id : SessionId}

/-! ## Rest -/

/-- All monitors wait. -/
def Resting (w : World) : Prop := ∀ k ∈ w.engine.monitors, w.turn k.no = none

theorem turn_of_monitor (h : w.Custody past) {k : Monitor} (hk : k ∈ w.engine.monitors) :
    w.turn k.no = w.turnMonitor k := by
  unfold turn
  rw [h.call?_eq_none (List.mem_append_left _ (List.mem_map_of_mem hk)), h.monitor? hk]

/-- A monitor that waits listens to a stream that is open and on which nothing waits. -/
theorem waits_of_resting (h : w.Custody past) (hvigilant : w.Vigilant said) (hrest : w.Resting)
    {k : Monitor} (hk : k ∈ w.engine.monitors) : ∃ n stream, k.watch = .listening n ∧
      w.server.cluster.stream? n = some stream ∧ stream.waiting = [] ∧ stream.isOpen = true := by
  have hidle := turn_of_monitor h hk ▸ hrest k hk
  have hmonitor := h.monitor? hk
  unfold turnMonitor at hidle
  split at hidle
  · rename_i hwatch
    -- the server answers whoever attaches at once
    rw [move_eq_none_iff] at hidle
    dsimp only [Engine.step] at hidle
    rw [hmonitor, Option.bind_eq_bind, Option.bind_some, if_pos hwatch] at hidle
    cases hidle
  · rename_i n hwatch
    have hnot : k.watch ≠ .attaching := by rw [hwatch]; exact fun heq => nomatch heq
    refine ⟨n, ?_⟩
    rw [read_eq hvigilant.faithful] at hidle
    split at hidle
    · rename_i hread
      split at hread
      · cases hread
      · rename_i stream hstream
        split at hread
        · cases hread
        · rename_i hwaiting
          refine ⟨stream, hwatch, hstream, hwaiting, ?_⟩
          by_contra hclosed
          rw [if_neg hclosed] at hread
          cases hread
    · rename_i r server _
      rw [move_eq_none_iff] at hidle
      dsimp only [Engine.step] at hidle
      rw [hmonitor, Option.bind_eq_bind, Option.bind_some, if_neg hnot] at hidle
      cases hidle
    · rw [move_eq_none_iff, Engine.step, hmonitor, Option.bind_eq_bind, Option.bind_some,
        if_neg hnot] at hidle
      cases hidle

/-- At rest the flag of a session that the pool tracks is alive exactly if the session is fit for use. -/
theorem isAlive_iff_fit (h : w.Custody past) (hvigilant : w.Vigilant said) (hrest : w.Resting) {t : Tracked}
    (ht : w.engine.pool.find? id = some t) :
    w.engine.isAlive t.flag = true ↔ w.server.cluster.Fit said id := by
  constructor
  · intro halive
    obtain ⟨k, hk, hno⟩ := hvigilant.engine.guarded id t ht halive
    obtain ⟨u, hu, hflag⟩ := h.watched.tracked k hk
    obtain rfl := h.watched.apart id t k.id u ht hu (hno.symm.trans hflag.symm)
    obtain ⟨n, stream, hwatch, hstream, hwaiting, hopen⟩ := waits_of_resting h hvigilant hrest hk
    rcases hvigilant.engine.listening k hk n hwatch with ⟨hlink, hcodes⟩ | ⟨-, s, hs, hclosed⟩
    · refine hvigilant.engine.carries.wired.fit hlink fun code hcode => ?_
      obtain ⟨s, hs, hin⟩ := hcodes code hcode
      rw [hstream] at hs
      cases hs
      rw [hwaiting] at hin
      cases hin
    · rw [hstream] at hs
      cases hs
      rw [hopen] at hclosed
      cases hclosed
  · intro hfit
    by_contra hdead
    exact (hvigilant.engine.dead id t ht (by simpa using hdead)).not_fit hfit

/-! ## What is handed out -/

/-- The server names a session that it does not have. -/
theorem notMem_of_named (h : w.Custody past) {x : Happening} {m : Move DriverError Int} {server : Server}
    (hcauses : w.Causes x (some m) server) (hnamed : m.named? = some id) :
    id ∉ w.server.cluster.names := by
  cases hcauses with
  | act _ houtside =>
    cases m with
    | created => cases houtside
    | _ => cases hnamed
  | turn no _ _ hprompts =>
    cases hprompts with
    | alone _ hm =>
      cases m with
      | created => cases hm
      | _ => cases hnamed
    | created =>
      rcases w.server.cluster.endCreate_cases with ⟨error, herror, -⟩ | ⟨hok, -⟩
      · rw [herror] at hnamed
        cases hnamed
      · rw [hok] at hnamed
        cases hnamed
        exact fun hin => Cluster.sessionName_notMem _ (h.balanced.names_known hin)
    | _ => cases hnamed

/-- Whatever is handed out in a happening is tracked and alive, or new. -/
theorem handedOut_of_happen (h : w.Custody past) {x : Happening} (hhappen : w.happen x = some w') :
    ∃ acquired visits, w'.acquired = w.acquired ++ acquired ∧ w'.visits = w.visits ++ visits ∧
      ∀ id, (∃ no k, (no, .ok k) ∈ acquired ∧ k.id = id) ∨ (∃ no s, (no, s) ∈ visits ∧ s.id = id) →
        (∃ t, w.engine.pool.find? id = some t ∧ w.engine.isAlive t.flag = true) ∨
          id ∉ w.server.cluster.names := by
  obtain ⟨m, server, hcauses, hmove⟩ := causes_of_happen hhappen
  cases m with
  | none =>
    cases hmove
    exact ⟨[], [], (List.append_nil _).symm, (List.append_nil _).symm, by simp⟩
  | some m =>
    obtain ⟨e, hstep, rfl⟩ := exists_of_move (w := { w with server := server }) h.detached hmove
    have hheard := heard_hearAll { w with server := server } e
    refine ⟨_, _, hheard.acquired, hheard.visits, fun id hid => ?_⟩
    -- a lease that is acquired and a session that is visited are told in signals of their own
    have hleased : ∃ s ∈ e.signals, s.leased? = some id := by
      rcases hid with ⟨no, k, hk, rfl⟩ | ⟨no, info, hinfo, rfl⟩
      · obtain ⟨s, hs, heq⟩ := List.mem_filterMap.mp hk
        cases s <;> cases heq
        exact ⟨_, hs, rfl⟩
      · obtain ⟨s, hs, heq⟩ := List.mem_filterMap.mp hinfo
        cases s <;> cases heq
        exact ⟨_, hs, rfl⟩
    have hleads := Engine.leadsTo_of_step hstep
    obtain ⟨more, heq, hmore⟩ := hleads.descends.handedOut
    have hnothing : w.engine.handedOut = [] := by rw [Engine.handedOut, h.signals]; rfl
    have hin : id ∈ more := by
      have hid : id ∈ e.handedOut := List.mem_filterMap.mpr hleased
      rw [heq] at hid
      exact (List.mem_append.mp hid).resolve_left fun hold => by
        rw [show Engine.handedOut { w.engine with flags := e.flags } = [] from hnothing] at hold
        cases hold
    rcases hmore id hin with hnamed | ⟨t, ht, halive⟩
    · exact Or.inr (notMem_of_named h hcauses hnamed)
    · exact Or.inl ⟨t, ht, hleads.alive t.flag halive⟩

/-- Wherever it happens, whatever is handed out is tracked and alive, or new. -/
theorem handedOut_of_happenAt (h : w.Custody past) {x : Bool × Happening} (hhappen : w.happenAt x = some w') :
    ∃ acquired visits, w'.acquired = w.acquired ++ acquired ∧ w'.visits = w.visits ++ visits ∧
      ∀ id, (∃ no k, (no, .ok k) ∈ acquired ∧ k.id = id) ∨ (∃ no s, (no, s) ∈ visits ∧ s.id = id) →
        (∃ t, w.engine.pool.find? id = some t ∧ w.engine.isAlive t.flag = true) ∨
          id ∉ w.server.cluster.names :=
  handedOut_of_happen (w := w.placed x.1) (h.placed x.1) hhappen

/-! ## How sessions are lost -/

/-- How the server loses a session in a happening. -/
inductive Loses (w : World) (id : SessionId) : Happening → Prop
  /-- Somebody kills it at the server. -/
  | killed : Loses w id (.server (.kill id))
  /-- Somebody's operation on it fails because it is gone. -/
  | operated (error : RpcError) (hanswer : (w.server.cluster.operate id).1 = .error error)
      (hgone : error.isSessionStatus = true) : Loses w id (.operate id)
  /-- The operation of an execution on it fails because it is gone. -/
  | executed (no : TaskNo) (call : Call) (hcall : w.engine.call? no = some call) (a : Attempt) (k : Handle)
      (since : Nat) (hpoint : call.point = .operating a k since) (hid : k.id = id) (error : RpcError)
      (hanswer : (w.server.cluster.operate id).1 = .error error)
      (hgone : error.isSessionStatus = true) : Loses w id (.turn no)
  /-- The pool's deletion of it is answered. -/
  | deleted (no : TaskNo) (hanswer : w.answer? (.turn no) = some (id, some (.ok ()))) :
      Loses w id (.turn no)

theorem isUsable_serverAttach (s : Server) (k id : SessionId) :
    (s.attach k).2.cluster.isUsable id = s.cluster.isUsable id := by
  unfold Server.attach
  split
  · rfl
  · exact s.cluster.isUsable_attach k id

/-- What the pool tells reaches only the counts of creations. -/
theorem isUsable_hearAll (w : World) (e : Engine DriverError Int) (id : SessionId) :
    (w.hearAll e).server.cluster.isUsable id = w.server.cluster.isUsable id := by
  obtain ⟨calls, creating, peak, heq⟩ :=
    Cluster.foldl_heed (e.itinerary.requests.map (·.2)) w.server.cluster
  rw [server_hearAll, heq]
  rfl

/-- A session that can be used stays so in a turn, or the server loses it. -/
theorem usable_or_loses_of_prompts (h : w.Custody past) {no : TaskNo} {m : Move DriverError Int}
    {server : Server} (hprompts : w.Prompts no m server) (husable : w.server.cluster.isUsable id = true) :
    server.cluster.isUsable id = true ∨ w.Loses id (.turn no) := by
  cases hprompts with
  | alone m hm => exact Or.inl husable
  | created => exact Or.inl ((Cluster.isUsable_endCreate _ id).mpr (Or.inr husable))
  | answered cancels result => exact Or.inl husable
  | operated call hcall a k since hpoint hdeed cancels result =>
    refine (Cluster.isUsable_operate husable k.id).imp_right ?_
    rintro ⟨hid, error, hanswer, hgone⟩
    exact .executed no call hcall a k since hpoint hid error (hid ▸ hanswer) hgone
  | attached k hk hwatch => exact Or.inl ((isUsable_serverAttach w.server k.id id).trans husable)
  | heard k hk n hwatch r server hread =>
    left
    unfold Server.read at hread
    repeat' split at hread
    all_goals cases hread
    all_goals exact husable
  | ended k hk n hwatch hread => exact Or.inl husable
  | deleted d hending =>
    have hd := mem_of_ending? hending
    obtain ⟨due, -, hremoval⟩ := h.removal_eq hd
    by_cases hid : d.id = id
    · refine Or.inr (.deleted no ?_)
      rw [answer?, hending, Option.map_some, h.verdict_eq hd, hid]
    · rw [hremoval]
      exact Or.inl ((Cluster.isUsable_delete w.server.cluster d.id id).mpr ⟨husable, hid⟩)

/-- A session that can be used stays so, or the server loses it. -/
theorem usable_or_loses (h : w.Custody past) {x : Happening} (hhappen : w.happen x = some w')
    (husable : w.server.cluster.isUsable id = true) :
    w'.server.cluster.isUsable id = true ∨ w.Loses id x := by
  obtain ⟨m, server, hcauses, hmove⟩ := causes_of_happen hhappen
  have hserver : w'.server.cluster.isUsable id = server.cluster.isUsable id := by
    cases m with
    | none =>
      cases hmove
      rfl
    | some m =>
      obtain ⟨e, -, rfl⟩ := exists_of_move (w := { w with server := server }) h.detached hmove
      exact isUsable_hearAll { w with server := server } e id
  rw [hserver]
  cases hcauses with
  | turn no m server hprompts => exact usable_or_loses_of_prompts h hprompts husable
  | act m houtside => exact Or.inl husable
  | server step hspares =>
    cases step with
    | kill k =>
      by_cases hid : id = k
      · exact Or.inr (hid ▸ .killed)
      · exact Or.inl (((Cluster.cuts_kill w.server.cluster k).usable id hid).trans husable)
    | send k status =>
      exact Or.inl ((Cluster.isUsable_of_sessions (Cluster.sessions_send _ k status) id).trans husable)
    | _ => exact Or.inl husable
  | operate k =>
    refine (Cluster.isUsable_operate husable k).imp_right ?_
    rintro ⟨rfl, error, hanswer, hgone⟩
    exact .operated error hanswer hgone
  | attach k => exact Or.inl ((isUsable_serverAttach w.server k id).trans husable)

/-- Wherever it happens, a session that can be used stays so, or the server loses it. -/
theorem usable_or_losesAt (h : w.Custody past) {x : Bool × Happening} (hhappen : w.happenAt x = some w')
    (husable : w.server.cluster.isUsable id = true) :
    w'.server.cluster.isUsable id = true ∨ (w.placed x.1).Loses id x.2 :=
  usable_or_loses (h.placed x.1) hhappen husable

/-- A session that could be used and cannot be used any more was lost in between. -/
theorem loses_of_run (h : w.Custody past) {ys : List (Bool × Happening)} (hrun : w.run ys = some w')
    (husable : w.server.cluster.isUsable id = true) (hnot : w'.server.cluster.isUsable id = false) :
    ∃ before x after w₁, ys = before ++ x :: after ∧ w.run before = some w₁ ∧
      (w₁.placed x.1).Loses id x.2 := by
  induction ys generalizing w past with
  | nil =>
    cases hrun
    rw [husable] at hnot
    cases hnot
  | cons y ys ih =>
    obtain ⟨w₁, hfirst, hrest⟩ := Option.bind_eq_some_iff.mp hrun
    rcases usable_or_losesAt h hfirst husable with hstays | hloses
    · obtain ⟨before, x, after, w₂, rfl, hbefore, hloses⟩ := ih (h.happenAt hfirst) hrest hstays
      exact ⟨y :: before, x, after, w₂, rfl, Option.bind_eq_some_iff.mpr ⟨w₁, hfirst, hbefore⟩, hloses⟩
    · exact ⟨[], y, ys, w, rfl, rfl, hloses⟩

/-! ## What rest says -/

/-- When all monitors wait after a run in which only the pool attaches to sessions: the flag of each tracked
session is alive exactly if the session is alive on the server, the stream opened for it is open, and nothing
that was sent onto that stream said that it is unusable.  Whatever happens next hands out only such sessions
and new ones.  And if an operation on such a session is answered later by the server that there is no such
session, it was killed meanwhile, or a deletion of it by the pool was answered. -/
theorem flags_agree_of_run (setup : Setup) (latency : Span) (g g' : Generator)
    (deeds : TaskNo → Nat → Deed) (xs : List (Bool × Happening)) (w : World)
    (hrun : (begin setup latency g g' deeds).run xs = some w)
    (hown : ∀ place id, (place, .attach id) ∉ xs) (hrest : w.Resting) :
    (∀ id t, w.engine.pool.find? id = some t → (w.engine.isAlive t.flag = true ↔
      w.server.cluster.Fit ((begin setup latency g g' deeds).sent xs) id)) ∧
    (∀ x w', w.happenAt x = some w' →
      ∃ acquired visits, w'.acquired = w.acquired ++ acquired ∧ w'.visits = w.visits ++ visits ∧
        ∀ id, (∃ no k, (no, .ok k) ∈ acquired ∧ k.id = id) ∨ (∃ no s, (no, s) ∈ visits ∧ s.id = id) →
          w.server.cluster.Fit ((begin setup latency g g' deeds).sent xs) id ∨
            id ∉ w.server.cluster.names) ∧
    (∀ id, w.server.cluster.Fit ((begin setup latency g g' deeds).sent xs) id →
      ∀ ys w', w.run ys = some w' → w'.server.cluster.operationFailures = [] →
        (w'.server.cluster.operate id).1 = .error (Cluster.notFound .badSession id) →
          ∃ before x after w₁, ys = before ++ x :: after ∧ w.run before = some w₁ ∧
            (w₁.placed x.1).Loses id x.2) := by
  have hcustody := (custody_begin setup latency g g' deeds).run hrun
  have hvigilant := (vigilant_begin setup latency g g' deeds).run
    (custody_begin setup latency g g' deeds) hown hrun
  rw [List.nil_append] at hcustody hvigilant
  refine ⟨fun id t ht => isAlive_iff_fit hcustody hvigilant hrest ht, fun x w' hhappen => ?_,
    fun id hfit ys w' hlater hscript hanswer => loses_of_run hcustody hlater hfit.isUsable
      (Cluster.isUsable_of_notFound hscript hanswer)⟩
  obtain ⟨acquired, visits, hacquired, hvisits, hhanded⟩ := handedOut_of_happenAt hcustody hhappen
  refine ⟨acquired, visits, hacquired, hvisits, fun id hid => ?_⟩
  exact (hhanded id hid).imp_left fun ⟨t, ht, halive⟩ =>
    (isAlive_iff_fit hcustody hvigilant hrest ht).mp halive

/-- A caller acquires a session and returns it when its monitor has attached and heard that it is ready.
Then an execution is set up. -/
def leaseAndReturn : List (Bool × Happening) :=
  [(true, .act (.call .lease (.unnamed 0))), (true, .turn 0), (true, .turn 0), (true, .turn 1), (true, .turn 1),
    (true, .act (.release 1)), (true, .act (.call (.operation true) (.unnamed 1)))]

theorem flags_agree_of_leaseAndReturn :
    ∃ w, (begin (.ofConfig {} .standard none) .zero ⟨1⟩ ⟨2⟩ fun _ _ => ⟨false, 10, none⟩).run
        leaseAndReturn = some w ∧
      (∀ place id, (place, .attach id) ∉ leaseAndReturn) ∧ w.Resting ∧ w.engine.isAlive 1 = true ∧
      w.server.cluster.Fit [] (Cluster.sessionName 1) := by
  have hown : ∀ place id, (place, .attach id) ∉ leaseAndReturn := by simp [leaseAndReturn]
  have hfit : ∀ w t, (begin (.ofConfig {} .standard none) .zero ⟨1⟩ ⟨2⟩ fun _ _ => ⟨false, 10, none⟩).run
      leaseAndReturn = some w → w.Resting →
      w.engine.pool.find? (Cluster.sessionName 1) = some t → w.engine.isAlive t.flag = true →
      w.server.cluster.Fit ((begin (.ofConfig {} .standard none) .zero ⟨1⟩ ⟨2⟩
        fun _ _ => ⟨false, 10, none⟩).sent leaseAndReturn) (Cluster.sessionName 1) :=
    fun w t hrun hrest ht halive => ((flags_agree_of_run (.ofConfig {} .standard none) .zero ⟨1⟩ ⟨2⟩
      (fun _ _ => ⟨false, 10, none⟩) leaseAndReturn w hrun hown hrest).1 _ t ht).mp halive
  have hrest : ∀ w : World, w.engine.monitors.map (·.no) = [1] → w.turn 1 = none → w.Resting := by
    intro w hmonitors hidle k hk
    have hno : k.no ∈ w.engine.monitors.map (·.no) := List.mem_map_of_mem hk
    rw [hmonitors, List.mem_singleton] at hno
    rw [hno, hidle]
  exact ⟨_, rfl, hown, hrest _ rfl rfl, rfl, hfit _ _ rfl (hrest _ rfl rfl) rfl rfl⟩

/-- The execution reuses the session, which is given up by its name while the operation works.  The pool
deletes it, so that the operation fails because there is no such session, although nobody has killed it and
no operation has failed. -/
theorem notFound_without_kill :
    ∃ w w', (begin (.ofConfig {} .standard none) .zero ⟨1⟩ ⟨2⟩ fun _ _ => ⟨false, 10, none⟩).run
        leaseAndReturn = some w ∧ w.turn 1 = none ∧ w.engine.monitors.map (·.no) = [1] ∧
      w.run [(true, .turn 2), (true, .act (.invalidateId (Cluster.sessionName 1))), (true, .turn 3),
        (true, .act (.advance 10))] = some w' ∧
      (w'.engine.calls.map fun call => (call.no, call.point.lease?.map (·.id))) =
        [(2, some (Cluster.sessionName 1))] ∧
      w'.records = [] ∧ w'.server.cluster.operationFailures = [] ∧
      (w'.server.cluster.operate (Cluster.sessionName 1)).1 =
        .error (Cluster.notFound .badSession (Cluster.sessionName 1)) :=
  ⟨_, _, rfl, rfl, rfl, rfl, rfl, rfl, rfl, rfl⟩

end World

end PooledSessions
