import PooledSessions.Proofs.Cluster.Sessions
/-!
# A cluster without scripted failures

Where no failures are scripted (`Cluster.Untroubled`), creations succeed, and operations fail at random only.
Nothing else kills a session: where no operations are made to fail, every session that exists can be used
(`Cluster.Untroubled.isUsable`).
-/

namespace PooledSessions

namespace Cluster

variable {c : Cluster} {rate : Binary64}

/-- An operation succeeds, or it fails because the session cannot be used or because some operations are made
to fail at random, and may then kill the session. -/
theorem operate_cases (hscripted : c.operationFailures = []) (id : SessionId) :
    (∃ g, c.operate id = (.ok (c.operations + 1), { c with generator := g, operations := c.operations + 1 })) ∨
      (∃ e g, c.operate id = (.error e, { c with generator := g }) ∧
        (c.isUsable id = true → Binary64.zero.lt c.failureRate = true)) ∨
      ∃ e g, c.operate id = (.error e, ({ c with generator := g } : Cluster).kill id) ∧
        Binary64.zero.lt c.failureRate = true := by
  have hoperates := c.operates id
  generalize c.operate id = answered at hoperates ⊢
  cases hoperates with
  | scripted e rest hcons =>
    rw [hscripted] at hcons
    cases hcons
  | refused _ hunusable =>
    refine Or.inr (Or.inl ⟨_, c.generator, rfl, fun husable => ?_⟩)
    rw [hunusable] at husable
    cases husable
  | injected n g _ _ hrate =>
    unfold bereft
    split
    · exact Or.inr (Or.inr ⟨_, g, rfl, hrate⟩)
    · exact Or.inr (Or.inl ⟨_, g, rfl, fun _ => hrate⟩)
  | succeeds g => exact Or.inl ⟨g, rfl⟩

theorem live_of_steady {c' : Cluster} (h : c.Steady c') : c'.live = c.live := by
  rw [← length_names, ← length_names, h.names]

/-! ## Messages -/

/-- How many messages wait on the streams. -/
def unread (c : Cluster) : Nat := (c.streams.map (·.waiting.length)).sum

theorem unread_endStream (c : Cluster) (n : Option StreamNo) : (c.endStream n).unread = c.unread := by
  cases n with
  | none => rfl
  | some n =>
    refine congrArg List.sum (List.ext_getElem? fun k => ?_)
    rw [endStream, List.getElem?_map, List.getElem?_map, List.getElem?_modify]
    cases c.streams[k]? with
    | none => rfl
    | some s => by_cases hk : n = k <;> simp [hk]

theorem operations_attach (c : Cluster) (id : SessionId) : (c.attach id).2.operations = c.operations :=
  congrArg Tally.operations (tally_attach c id)

theorem unread_operate (hscripted : c.operationFailures = []) (id : SessionId) :
    (c.operate id).2.unread = c.unread := by
  rcases operate_cases hscripted id with ⟨g, heq⟩ | ⟨e, g, heq, -⟩ | ⟨e, g, heq, -⟩
  · rw [heq]
    rfl
  · rw [heq]
    rfl
  · rw [heq]
    exact unread_endStream { c with generator := g } _

/-- Attaching brings one message, unless it fails. -/
theorem unread_attach (c : Cluster) (id : SessionId) : (∃ e, c.attach id = (.error e, c)) ∨
    (∃ n, (c.attach id).1 = .ok n) ∧ (c.attach id).2.unread = c.unread + 1 := by
  unfold attach
  split
  · exact Or.inl ⟨_, rfl⟩
  · rename_i s _
    split
    · refine Or.inr ⟨⟨_, rfl⟩, ?_⟩
      have hended := c.unread_endStream s.stream
      simp only [unread] at hended ⊢
      simp [modify, hended]
    · exact Or.inl ⟨_, rfl⟩

theorem unread_delete (c : Cluster) (id : SessionId) : (c.delete id).2.unread = c.unread := by
  unfold delete
  split
  · rfl
  · exact c.unread_endStream _

theorem unread_takeMessage {n : StreamNo} {s : StatusStream} {m : SessionStatus} {rest : List SessionStatus}
    (hs : c.stream? n = some s) (hwaiting : s.waiting = m :: rest) :
    (c.takeMessage n).unread + 1 = c.unread := by
  obtain ⟨hlt, hget⟩ := List.getElem?_eq_some_iff.mp hs
  have hsplit : c.streams = c.streams.take n ++ s :: c.streams.drop (n + 1) := by
    rw [← hget, List.cons_getElem_drop_succ, List.take_append_drop]
  have hread : (c.takeMessage n).streams =
      c.streams.take n ++ { s with waiting := s.waiting.tail } :: c.streams.drop (n + 1) := by
    rw [takeMessage, List.modify_eq_take_cons_drop hlt, hget]
  have hbefore := congrArg (fun l => (l.map (·.waiting.length)).sum) hsplit
  simp only [List.map_append, List.map_cons, List.sum_append, List.sum_cons, hwaiting,
    List.length_cons] at hbefore
  rw [unread, hread, unread, hbefore]
  simp only [List.map_append, List.map_cons, List.sum_append, List.sum_cons, hwaiting, List.tail_cons]
  omega

/-! ## Failures -/

/-- No failures are scripted, and where no operations are made to fail, no session has been killed. -/
structure Untroubled (rate : Binary64) (c : Cluster) : Prop where
  /-- Creations succeed. -/
  createFailures : c.createFailures = []
  /-- No operation is scripted to fail. -/
  operationFailures : c.operationFailures = []
  /-- This part of the operations fails at random. -/
  failureRate : c.failureRate = rate
  /-- If none does, all sessions can be used. -/
  alive : Binary64.zero.lt rate = false → ∀ x ∈ c.sessions, x.2.alive = true

namespace Untroubled

theorem endCreate (h : c.Untroubled rate) :
    c.endCreate = (.ok ⟨sessionName (c.created + 1), sessionNode (c.created + 1)⟩,
        { c with
          creating := c.creating - 1
          created := c.created + 1
          sessions := (sessionName (c.created + 1), ⟨sessionNode (c.created + 1), true, none⟩) :: c.sessions }) ∧
      c.endCreate.2.Untroubled rate := by
  have heq : c.endCreate = (.ok ⟨sessionName (c.created + 1), sessionNode (c.created + 1)⟩,
      { c with
        creating := c.creating - 1
        created := c.created + 1
        sessions := (sessionName (c.created + 1), ⟨sessionNode (c.created + 1), true, none⟩) :: c.sessions }) := by
    unfold Cluster.endCreate
    dsimp only
    split
    · rename_i hcons
      rw [h.createFailures] at hcons
      cases hcons
    · rfl
  refine ⟨heq, ?_⟩
  rw [heq]
  refine ⟨h.createFailures, h.operationFailures, h.failureRate, fun hrate x hx => ?_⟩
  rcases List.mem_cons.mp hx with rfl | hx
  · rfl
  · exact h.alive hrate x hx

/-- Sessions that are told apart only by their streams can be used as before. -/
theorem modify (h : c.Untroubled rate) (id : SessionId) (change : ServerSession → ServerSession)
    (hchange : Binary64.zero.lt rate = false → ∀ s, (change s).alive = s.alive) :
    (c.modify id change).Untroubled rate := by
  refine ⟨h.createFailures, h.operationFailures, h.failureRate, fun hrate x hx => ?_⟩
  obtain ⟨⟨k, s⟩, hin, rfl⟩ := List.mem_map.mp hx
  have halive : s.alive = true := h.alive hrate (k, s) hin
  dsimp only
  split
  · exact (hchange hrate s).trans halive
  · exact halive

theorem endStream (h : c.Untroubled rate) (n : Option StreamNo) : (c.endStream n).Untroubled rate := by
  cases n with
  | none => exact h
  | some n => exact ⟨h.createFailures, h.operationFailures, h.failureRate, h.alive⟩

theorem operate (h : c.Untroubled rate) (id : SessionId) : (c.operate id).2.Untroubled rate := by
  rcases operate_cases h.operationFailures id with ⟨g, heq⟩ | ⟨e, g, heq, -⟩ | ⟨e, g, heq, hrate⟩
  · rw [heq]
    exact ⟨h.createFailures, h.operationFailures, h.failureRate, h.alive⟩
  · rw [heq]
    exact ⟨h.createFailures, h.operationFailures, h.failureRate, h.alive⟩
  · rw [heq]
    have hdrawn : ({ c with generator := g } : Cluster).Untroubled rate :=
      ⟨h.createFailures, h.operationFailures, h.failureRate, h.alive⟩
    refine (hdrawn.endStream ((c.find? id).bind (·.stream))).modify id
      (fun s => { s with alive := false, stream := none }) fun hnone => ?_
    rw [h.failureRate, hnone] at hrate
    cases hrate

theorem attach (h : c.Untroubled rate) (id : SessionId) : (c.attach id).2.Untroubled rate := by
  unfold Cluster.attach
  split
  · exact h
  · rename_i s _
    split
    · have hended := h.endStream s.stream
      have hopened : ({ c.endStream s.stream with
          streams := (c.endStream s.stream).streams ++ [⟨[.ready], true⟩] } : Cluster).Untroubled rate :=
        ⟨hended.createFailures, hended.operationFailures, hended.failureRate, hended.alive⟩
      exact hopened.modify id (fun s => { s with stream := some c.streams.length }) fun _ _ => rfl
    · exact h

theorem delete (h : c.Untroubled rate) (id : SessionId) : (c.delete id).2.Untroubled rate := by
  unfold Cluster.delete
  split
  · exact h
  · rename_i s _
    have hended := h.endStream s.stream
    exact ⟨hended.createFailures, hended.operationFailures, hended.failureRate,
      fun hrate x hx => hended.alive hrate x (List.mem_filter.mp hx).1⟩

/-- Where no operations are made to fail, every session that exists can be used. -/
theorem isUsable (h : c.Untroubled rate) (hrate : Binary64.zero.lt rate = false) {id : SessionId}
    (hid : id ∈ c.names) : c.isUsable id = true := by
  obtain ⟨s, hs⟩ := Option.ne_none_iff_exists'.mp (mt Pool.lookup_eq_none_iff_notMem.mp (not_not.mpr hid))
  rw [Cluster.isUsable, find?, hs]
  exact h.alive hrate _ (Pool.mem_of_lookup hs)

end Untroubled

end Cluster

end PooledSessions
