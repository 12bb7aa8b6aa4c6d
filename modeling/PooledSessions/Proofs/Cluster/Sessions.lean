import Mathlib
import PooledSessions.Simulation.ServerStep
import PooledSessions.Proofs.Pool.Tables
/-!
# The sessions of a simulated cluster

Sessions come to a cluster only by creations that end well, under names that were never used before, and
leave it only by deletions.  Whatever else happens at a cluster or at the server before it is steady
(`Cluster.Steady`, `Server.Steady`): no session comes or goes.
-/

namespace PooledSessions

namespace Cluster

/-! ## Names -/

/-- The names of the sessions that exist. -/
def names (c : Cluster) : List SessionId := c.sessions.map (·.1)

/-- The names of the first `n` sessions, the latest one first. -/
def namesUpTo : Nat → List SessionId
  | 0 => []
  | n + 1 => sessionName (n + 1) :: namesUpTo n

theorem sessionName_inj {n k : Nat} (h : sessionName n = sessionName k) : n = k := by
  rw [sessionName, sessionName, SessionId.mk.injEq, String.append_right_inj] at h
  exact Nat.repr_inj.mp h

theorem exists_of_mem_namesUpTo {n : Nat} {id : SessionId} (h : id ∈ namesUpTo n) :
    ∃ k, k ≤ n ∧ id = sessionName k := by
  induction n with
  | zero => cases h
  | succ n ih =>
    rcases List.mem_cons.mp h with rfl | hin
    · exact ⟨n + 1, Nat.le_refl _, rfl⟩
    · obtain ⟨k, hk, hid⟩ := ih hin
      exact ⟨k, Nat.le_succ_of_le hk, hid⟩

/-- A session gets a name that was never used before. -/
theorem sessionName_notMem (n : Nat) : sessionName (n + 1) ∉ namesUpTo n := by
  intro hin
  obtain ⟨k, hk, hid⟩ := exists_of_mem_namesUpTo hin
  have := sessionName_inj hid
  omega

/-! ## How an operation can go -/

/-- What becomes of a cluster when an operation on a session fails: the session is killed if the error says
that it is gone. -/
def bereft (c : Cluster) (id : SessionId) (e : RpcError) : Cluster :=
  if e.isSessionStatus then c.kill id else c

/-- How an operation on a session of the cluster `c` can go: what it answers, and what becomes of the
cluster. -/
inductive Operates (c : Cluster) (id : SessionId) : Except RpcError Nat × Cluster → Prop
  /-- It fails as scripted. -/
  | scripted (e : RpcError) (rest : List RpcError) (hscript : c.operationFailures = e :: rest) :
      Operates c id (.error e, ({ c with operationFailures := rest } : Cluster).bereft id e)
  /-- The session cannot be used. -/
  | refused (hscript : c.operationFailures = []) (hunusable : c.isUsable id = false) :
      Operates c id (.error (notFound .badSession id), c)
  /-- It is made to fail at random. -/
  | injected (n : Nat) (g : Generator) (hscript : c.operationFailures = []) (husable : c.isUsable id = true)
      (hrate : Binary64.zero.lt c.failureRate = true) :
      Operates c id (.error (.status (injected n) "injected failure"),
        ({ c with generator := g } : Cluster).bereft id (.status (injected n) "injected failure"))
  /-- It succeeds. -/
  | succeeds (g : Generator) (hscript : c.operationFailures = []) (husable : c.isUsable id = true) :
      Operates c id (.ok (c.operations + 1), { c with generator := g, operations := c.operations + 1 })

/-- Of the failures that are chosen at random, one says that the session is gone. -/
theorem isSessionStatus_injected (n : Nat) (text : String) :
    (RpcError.status (injected n) text).isSessionStatus = decide (injected n = .badSession) := by
  unfold injected
  split <;> rfl

theorem operates (c : Cluster) (id : SessionId) : Operates c id (c.operate id) := by
  unfold operate
  split
  · rename_i e rest hscript
    exact .scripted e rest hscript
  · rename_i hscript
    split
    · rename_i husable
      unfold operateAtRandom
      -- the draws are only named here: they must not be computed
      extract_lets succeed
      split
      · rename_i hrate
        split
        extract_lets drawn
        split
        · split
          rename_i n g _
          extract_lets chosen code
          have hfails := Operates.injected n g hscript husable hrate
          rw [bereft, isSessionStatus_injected] at hfails
          simpa only [decide_eq_true_eq] using hfails
        · exact .succeeds drawn.generator hscript husable
      · exact .succeeds c.generator hscript husable
    · rename_i hunusable
      exact .refused hscript (Bool.eq_false_iff.mpr hunusable)

/-! ## What a cluster counts -/

/-- What a cluster counts, what is scripted for it, and which sessions exist. -/
structure Tally where
  /-- The names of the sessions that exist. -/
  names : List SessionId
  /-- How the next creations fail. -/
  createFailures : List RpcError
  /-- How the next operations fail. -/
  operationFailures : List RpcError
  /-- How many creations are under way. -/
  creating : Nat
  /-- How many creations have begun. -/
  createCalls : Nat
  /-- How many sessions were created. -/
  created : Nat
  /-- How many sessions were deleted. -/
  deleted : Nat
  /-- The largest load so far. -/
  peakLoad : Nat
  /-- How many operations succeeded. -/
  operations : Nat

/-- The tally of a cluster. -/
def tally (c : Cluster) : Tally :=
  ⟨c.names, c.createFailures, c.operationFailures, c.creating, c.createCalls, c.created, c.deleted,
    c.peakLoad, c.operations⟩

theorem tally_endStream (c : Cluster) (n : Option StreamNo) : (c.endStream n).tally = c.tally := by
  cases n <;> rfl

theorem names_modify (c : Cluster) (id : SessionId) (change : ServerSession → ServerSession) :
    (c.modify id change).names = c.names := by
  rw [Cluster.names, Cluster.names, Cluster.modify, List.map_map]
  refine List.map_congr_left fun x _ => ?_
  obtain ⟨k, s⟩ := x
  by_cases he : k = id <;> simp [he]

theorem tally_modify (c : Cluster) (id : SessionId) (change : ServerSession → ServerSession) :
    (c.modify id change).tally = c.tally := by
  rw [tally, names_modify]
  rfl

theorem tally_send (c : Cluster) (id : SessionId) (status : SessionStatus) :
    (c.send id status).tally = c.tally := by
  unfold send
  split <;> rfl

theorem tally_kill (c : Cluster) (id : SessionId) : (c.kill id).tally = c.tally := by
  rw [kill, tally_modify, tally_endStream]

theorem tally_bereft (c : Cluster) (id : SessionId) (e : RpcError) : (c.bereft id e).tally = c.tally := by
  unfold bereft
  split
  · exact tally_kill c id
  · rfl

theorem tally_attach (c : Cluster) (id : SessionId) : (c.attach id).2.tally = c.tally := by
  unfold attach
  split
  · rfl
  · rename_i s _
    split
    · exact (tally_modify _ id _).trans (tally_endStream c s.stream)
    · rfl

/-- An operation takes the next failure that is scripted, and may be counted. -/
theorem tally_operate (c : Cluster) (id : SessionId) : ∃ n, (c.operate id).2.tally =
    { c.tally with operationFailures := c.operationFailures.tail, operations := n } := by
  have hoperates := c.operates id
  generalize c.operate id = answered at hoperates ⊢
  cases hoperates with
  | scripted e rest hscript =>
    rw [tally_bereft, hscript]
    exact ⟨c.operations, rfl⟩
  | refused hscript =>
    rw [hscript, List.tail_nil, ← hscript]
    exact ⟨c.operations, rfl⟩
  | injected n g hscript =>
    rw [tally_bereft, hscript, List.tail_nil, ← hscript]
    exact ⟨c.operations, rfl⟩
  | succeeds g hscript =>
    rw [hscript, List.tail_nil, ← hscript]
    exact ⟨c.operations + 1, rfl⟩

/-! ## What leaves the sessions alone -/

/-- No session comes or goes between two states of a cluster. -/
structure Steady (c c' : Cluster) : Prop where
  /-- The same sessions exist. -/
  names : c'.names = c.names
  /-- None was created. -/
  created : c'.created = c.created
  /-- None was deleted. -/
  deleted : c'.deleted = c.deleted

protected theorem Steady.rfl {c : Cluster} : Steady c c := ⟨rfl, rfl, rfl⟩

theorem Steady.trans {c c' c'' : Cluster} (h : Steady c c') (h' : Steady c' c'') : Steady c c'' :=
  ⟨h'.names.trans h.names, h'.created.trans h.created, h'.deleted.trans h.deleted⟩

theorem Steady.of_tally {c c' : Cluster} (h : c'.tally = c.tally) : Steady c c' :=
  ⟨congrArg Tally.names h, congrArg Tally.created h, congrArg Tally.deleted h⟩

theorem steady_send (c : Cluster) (id : SessionId) (status : SessionStatus) :
    Steady c (c.send id status) :=
  .of_tally (tally_send c id status)

theorem steady_kill (c : Cluster) (id : SessionId) : Steady c (c.kill id) := .of_tally (tally_kill c id)

theorem steady_attach (c : Cluster) (id : SessionId) : Steady c (c.attach id).2 :=
  .of_tally (tally_attach c id)

theorem steady_operate (c : Cluster) (id : SessionId) : Steady c (c.operate id).2 := by
  obtain ⟨n, htally⟩ := c.tally_operate id
  exact ⟨congrArg Tally.names htally, congrArg Tally.created htally, congrArg Tally.deleted htally⟩

/-! ## Creation and deletion -/

/-- How a creation at the cluster `c` can end: what it answers, and what becomes of the cluster. -/
inductive Creates (c : Cluster) : Except RpcError SessionInfo × Cluster → Prop
  /-- It fails as scripted. -/
  | scripted (e : RpcError) (rest : List RpcError) (hscript : c.createFailures = e :: rest) :
      Creates c (.error e, { c with creating := c.creating - 1, createFailures := rest })
  /-- It brings a session. -/
  | succeeds (hscript : c.createFailures = []) :
      Creates c (.ok ⟨sessionName (c.created + 1), sessionNode (c.created + 1)⟩,
        { c with
          creating := c.creating - 1
          created := c.created + 1
          sessions := (sessionName (c.created + 1), ⟨sessionNode (c.created + 1), true, none⟩) ::
            c.sessions })

theorem creates (c : Cluster) : Creates c c.endCreate := by
  unfold endCreate
  dsimp only
  split
  · rename_i e rest hscript
    exact .scripted e rest hscript
  · rename_i hscript
    exact .succeeds hscript

/-- A creation fails, or brings a session with a new name. -/
theorem endCreate_cases (c : Cluster) :
    (∃ e, c.endCreate.1 = .error e ∧ Steady c c.endCreate.2) ∨
      (c.endCreate.1 = .ok ⟨sessionName (c.created + 1), sessionNode (c.created + 1)⟩ ∧
        c.endCreate.2.names = sessionName (c.created + 1) :: c.names ∧
        c.endCreate.2.created = c.created + 1 ∧ c.endCreate.2.deleted = c.deleted) := by
  have hcreates := c.creates
  generalize c.endCreate = answered at hcreates ⊢
  cases hcreates with
  | scripted e rest => exact Or.inl ⟨e, rfl, ⟨rfl, rfl, rfl⟩⟩
  | succeeds => exact Or.inr ⟨rfl, rfl, rfl, rfl⟩

/-- The deletion of a session that does not exist fails. -/
theorem delete_of_notMem {c : Cluster} {id : SessionId} (h : id ∉ c.names) :
    c.delete id = (.error (notFound .notFound id), c) := by
  have hnone : c.find? id = none := Pool.lookup_eq_none_iff_notMem.mpr h
  rw [delete, hnone]

/-- The deletion of a session that exists succeeds, and is counted. -/
theorem tally_delete {c : Cluster} {id : SessionId} (h : id ∈ c.names) :
    (c.delete id).1 = .ok () ∧ (c.delete id).2.tally =
      { c.tally with names := c.names.filter (· ≠ id), deleted := c.deleted + 1 } := by
  unfold delete
  split
  · rename_i hnone
    exact absurd h (Pool.lookup_eq_none_iff_notMem.mp hnone)
  · rename_i s _
    refine ⟨rfl, Eq.trans ?_ (congrArg (fun t : Tally =>
      { t with names := t.names.filter (· ≠ id), deleted := t.deleted + 1 }) (tally_endStream c s.stream))⟩
    have hnames : ((c.endStream s.stream).sessions.filter (·.1 ≠ id)).map (·.1) =
        (c.endStream s.stream).names.filter (· ≠ id) := by
      rw [names, List.filter_map]
      rfl
    rw [tally, names, hnames]
    rfl

theorem delete_of_mem {c : Cluster} {id : SessionId} (h : id ∈ c.names) :
    (c.delete id).1 = .ok () ∧ (c.delete id).2.names = c.names.filter (· ≠ id) ∧
      (c.delete id).2.created = c.created ∧ (c.delete id).2.deleted = c.deleted + 1 :=
  ⟨(tally_delete h).1, congrArg Tally.names (tally_delete h).2, congrArg Tally.created (tally_delete h).2,
    congrArg Tally.deleted (tally_delete h).2⟩

/-! ## The count of sessions -/

/-- A cluster that has answered the deletions `past` so far, with `none` for one that was given up: each
session that was created exists or was deleted, and deleted once. -/
structure Balanced (c : Cluster) (past : List (SessionId × Option (Except RpcError Unit))) : Prop where
  /-- The sessions that exist make up the difference of those created and those deleted. -/
  conserved : c.created = c.deleted + c.live
  /-- No session is deleted twice, and none that exists is deleted. -/
  nodup : (past.map (·.1) ++ c.names).Nodup
  /-- The sessions that exist were named by the cluster. -/
  names_known : c.names ⊆ namesUpTo c.created
  /-- The sessions that were deleted were named by the cluster. -/
  past_known : past.map (·.1) ⊆ namesUpTo c.created
  /-- All deletions have succeeded. -/
  succeeded : ∀ r ∈ past, r.2 = some (.ok ())

theorem length_names (c : Cluster) : c.names.length = c.live := List.length_map _

theorem balanced_fresh (g : Generator) : (fresh g).Balanced [] :=
  ⟨rfl, List.nodup_nil, List.nil_subset _, List.nil_subset _, by simp⟩

namespace Balanced

variable {c c' : Cluster} {past : List (SessionId × Option (Except RpcError Unit))}

theorem of_steady (h : c.Balanced past) (hsteady : c.Steady c') : c'.Balanced past where
  conserved := by
    rw [hsteady.created, hsteady.deleted, ← length_names, hsteady.names, length_names, h.conserved]
  nodup := hsteady.names ▸ h.nodup
  names_known := hsteady.names ▸ hsteady.created ▸ h.names_known
  past_known := hsteady.created ▸ h.past_known
  succeeded := h.succeeded

/-- The answer to a creation, whatever it is, keeps the balance. -/
theorem endCreate (h : c.Balanced past) : c.endCreate.2.Balanced past := by
  rcases c.endCreate_cases with ⟨e, -, hsteady⟩ | ⟨-, hnames, hcreated, hdeleted⟩
  · exact h.of_steady hsteady
  · have hgrown : namesUpTo c.created ⊆ namesUpTo (c.created + 1) := List.subset_cons_self _ _
    refine ⟨?_, ?_, ?_, ?_, h.succeeded⟩
    · rw [← length_names, hnames, List.length_cons, length_names, hcreated, hdeleted, h.conserved,
        Nat.add_assoc]
    · rw [hnames, List.perm_middle.nodup_iff, List.nodup_cons]
      refine ⟨fun hin => sessionName_notMem c.created ?_, h.nodup⟩
      rcases List.mem_append.mp hin with hin | hin
      · exact h.past_known hin
      · exact h.names_known hin
    · rw [hnames, hcreated]
      exact List.cons_subset_cons _ h.names_known
    · rw [hcreated]
      exact List.Subset.trans h.past_known hgrown

/-- The answer to the deletion of a session that exists keeps the balance. -/
theorem delete (h : c.Balanced past) {id : SessionId} (hid : id ∈ c.names) :
    (c.delete id).2.Balanced (past ++ [(id, some (c.delete id).1)]) := by
  obtain ⟨hanswer, hnames, hcreated, hdeleted⟩ := delete_of_mem hid
  have hnd : c.names.Nodup := (List.nodup_append.mp h.nodup).2.1
  have herase : c.names.erase id = c.names.filter (· ≠ id) := by
    rw [hnd.erase_eq_filter]
    exact List.filter_congr fun k _ => by rw [bne, decide_not, beq_eq_decide]
  have hperm : c.names.Perm (id :: c.names.filter (· ≠ id)) :=
    herase ▸ List.perm_cons_erase hid
  refine ⟨?_, ?_, ?_, ?_, ?_⟩
  · have hlength := hperm.length_eq
    rw [length_names, List.length_cons, ← hnames, length_names] at hlength
    rw [hcreated, hdeleted, h.conserved, hlength, Nat.add_assoc, Nat.add_comm 1]
  · rw [hnames, List.map_append, List.append_assoc]
    exact (hperm.append_left (past.map (·.1))).nodup_iff.mp h.nodup
  · rw [hnames, hcreated]
    exact fun k hk => h.names_known (List.mem_of_mem_filter hk)
  · rw [hcreated, List.map_append]
    refine List.append_subset.mpr ⟨h.past_known, ?_⟩
    simpa using h.names_known hid
  · intro r hr
    rcases List.mem_append.mp hr with hr | hr
    · exact h.succeeded r hr
    · rw [List.mem_singleton.mp hr, hanswer]

end Balanced

end Cluster

/-- Whether a step taken at a server leaves deletions as they are. -/
def ServerStep.sparesDeletions : ServerStep → Bool
  | .failDelete _ _ => false
  | .slowDelete _ _ => false
  | _ => true

namespace Server

/-- No session comes or goes between two states of a server, and deletions stay as they were. -/
structure Steady (s s' : Server) : Prop where
  /-- No session comes or goes. -/
  cluster : s.cluster.Steady s'.cluster
  /-- Deletions fail as before. -/
  deleteFailures : s'.deleteFailures = s.deleteFailures
  /-- Deletions are held up as before. -/
  deleteDelays : s'.deleteDelays = s.deleteDelays

protected theorem Steady.rfl {s : Server} : Steady s s := ⟨.rfl, rfl, rfl⟩

theorem Steady.trans {s s' s'' : Server} (h : Steady s s') (h' : Steady s' s'') : Steady s s'' :=
  ⟨h.cluster.trans h'.cluster, h'.deleteFailures.trans h.deleteFailures,
    h'.deleteDelays.trans h.deleteDelays⟩

theorem steady_attach (s : Server) (id : SessionId) : Steady s (s.attach id).2 := by
  unfold attach
  split
  · exact ⟨.rfl, rfl, rfl⟩
  · exact ⟨s.cluster.steady_attach id, rfl, rfl⟩

theorem steady_read (s : Server) (n : StreamNo) : Steady s (s.read n).2 := by
  unfold read
  repeat' split
  all_goals exact ⟨⟨rfl, rfl, rfl⟩, rfl, rfl⟩

/-- Steps taken at a server leave its sessions alone. -/
theorem steady_take (s : Server) {step : ServerStep} (hspares : step.sparesDeletions = true) :
    Steady s (s.take step).2 := by
  cases step with
  | kill id => exact ⟨s.cluster.steady_kill id, rfl, rfl⟩
  | send id status => exact ⟨s.cluster.steady_send id status, rfl, rfl⟩
  | failDelete id e => cases hspares
  | slowDelete id ms => cases hspares
  | _ => exact ⟨⟨rfl, rfl, rfl⟩, rfl, rfl⟩

end Server

end PooledSessions
