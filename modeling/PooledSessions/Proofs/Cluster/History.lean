import PooledSessions.Proofs.Cluster.Streams
/-!
# The history of a simulated cluster

Whoever has access to a cluster may do anything there at any time, and the creations are in the way of
nobody: between the beginning of one and its end others may begin, end or be abandoned, and sessions may be
attached to, run on, killed and deleted.  A chronicle is a cluster together with all that has happened at it
(`Chronicle`), and a run of it is any sequence of possible acts (`Chronicle.run`).

What the cluster should count and answer can be read off the history alone.  Somebody who sees everything
that happens keeps books of it (`Cluster.books`); a session that was created stands until it is killed or
deleted (`Cluster.Standing`); and each answer has to fit what had happened before (`Cluster.Fits`).
-/

namespace PooledSessions

namespace Cluster

/-- Something that is done at a cluster.  A creation is known by the number of things that had happened
before it began. -/
inductive Act
  /-- Somebody begins to create a session. -/
  | beginCreate
  /-- The latency of a creation has passed. -/
  | endCreate (call : Nat)
  /-- A creation is given up while its latency passes. -/
  | abandonCreate (call : Nat)
  /-- Somebody attaches to a session. -/
  | attach (id : SessionId)
  /-- A message about a session is sent. -/
  | send (id : SessionId) (status : SessionStatus)
  /-- A message is taken off a stream. -/
  | takeMessage (stream : StreamNo)
  /-- A session is killed. -/
  | kill (id : SessionId)
  /-- A session is deleted. -/
  | delete (id : SessionId)
  /-- An operation is run on a session. -/
  | operate (id : SessionId)
  /-- The failures of further creations are scripted. -/
  | failCreates (errors : List RpcError)
  /-- The failures of further operations are scripted. -/
  | failOperations (errors : List RpcError)
  /-- A fraction of the operations is made to fail. -/
  | setFailureRate (rate : Binary64)

/-- Something that has happened at a cluster, with what the cluster answered. -/
inductive Incident
  /-- A creation has begun. -/
  | begun (call : Nat)
  /-- A creation was answered. -/
  | finished (call : Nat) (result : Except RpcError SessionInfo)
  /-- A creation was abandoned. -/
  | abandoned (call : Nat)
  /-- Somebody asked to be attached to a session. -/
  | attached (id : SessionId) (result : Except RpcError StreamNo)
  /-- A session was killed. -/
  | killed (id : SessionId)
  /-- Somebody asked for the deletion of a session. -/
  | deleted (id : SessionId) (result : Except RpcError Unit)
  /-- An operation was answered. -/
  | operated (id : SessionId) (result : Except RpcError Nat)
  /-- The failures of further creations were scripted. -/
  | createsScripted (errors : List RpcError)
  /-- The failures of further operations were scripted. -/
  | operationsScripted (errors : List RpcError)
  /-- Messages were sent or read, or the fraction of failures was set. -/
  | aside

namespace Incident

/-- Whether a session cannot be used afterwards: it was killed, also by an operation that failed because the
session was gone, or it was deleted. -/
def spends (id : SessionId) : Incident → Bool
  | killed k => k = id
  | deleted k (.ok ()) => k = id
  | operated k (.error e) => k = id && e.isSessionStatus
  | _ => false

/-- Whether something succeeded for which a session must be there to be used. -/
def uses (id : SessionId) : Incident → Bool
  | attached k (.ok _) => k = id
  | operated k (.ok _) => k = id
  | _ => false

end Incident

/-! ## What a history says -/

/-- What somebody writes down who sees all that happens at a cluster. -/
structure Books where
  /-- The creations that have begun and were neither answered nor abandoned. -/
  unfinished : List Nat := []
  /-- The failures that are scripted for creations and were not answered yet. -/
  createScript : List RpcError := []
  /-- The failures that are scripted for operations and were not answered yet. -/
  operationScript : List RpcError := []
  /-- The sessions that were created, the first one first. -/
  named : List SessionId := []
  /-- How many creations failed. -/
  refusals : Nat := 0
  /-- How many creations were abandoned. -/
  abandonments : Nat := 0
  /-- The sessions that were deleted, the first one first. -/
  removed : List SessionId := []
  /-- What the operations that succeeded answered, the first one first. -/
  outcomes : List Nat := []

/-- The books with one more thing.  Each creation that is answered and each operation takes the next failure
that is scripted, if there is one; a creation that is abandoned takes none. -/
def Books.after (b : Books) : Incident → Books
  | .begun call => { b with unfinished := b.unfinished ++ [call] }
  | .finished call (.ok s) =>
    { b with
      unfinished := b.unfinished.erase call
      createScript := b.createScript.tail
      named := b.named ++ [s.id] }
  | .finished call (.error _) =>
    { b with
      unfinished := b.unfinished.erase call
      createScript := b.createScript.tail
      refusals := b.refusals + 1 }
  | .abandoned call =>
    { b with unfinished := b.unfinished.erase call, abandonments := b.abandonments + 1 }
  | .deleted id (.ok ()) => { b with removed := b.removed ++ [id] }
  | .operated _ (.ok n) =>
    { b with operationScript := b.operationScript.tail, outcomes := b.outcomes ++ [n] }
  | .operated _ (.error _) => { b with operationScript := b.operationScript.tail }
  | .createsScripted errors => { b with createScript := b.createScript ++ errors }
  | .operationsScripted errors => { b with operationScript := b.operationScript ++ errors }
  | _ => b

/-- The books after all that has happened. -/
def books (past : List Incident) : Books := past.foldl .after {}

/-- A session was created and, since then, neither killed nor deleted. -/
def Standing (past : List Incident) (id : SessionId) : Prop :=
  id ∈ (books past).named ∧
    ∀ before x after, past = before ++ x :: after → id ∈ (books before).named → x.spends id = false

/-- Whether something that has happened fits what had happened before.  A creation is answered with the next
failure that is scripted, or else with a new session.  One can attach to the sessions that stand.  An
operation is answered with the next failure that is scripted; or else it may succeed, but only on a session
that stands. -/
def Fits (before : List Incident) : Incident → Prop
  | .finished _ result =>
    match (books before).createScript with
    | e :: _ => result = .error e
    | [] => ∃ s, result = .ok s ∧ s.id ∉ (books before).named
  | .attached id result => (∃ stream, result = .ok stream) ↔ Standing before id
  | .operated id result =>
    match (books before).operationScript with
    | e :: _ => result = .error e
    | [] => ∀ n, result = .ok n → Standing before id
  | _ => True

/-! ## Histories that go on -/

variable {past : List Incident} {x : Incident} {id : SessionId}

@[simp] theorem books_concat (past : List Incident) (x : Incident) :
    books (past ++ [x]) = (books past).after x :=
  List.foldl_concat ..

/-- A session that is written down once stays so. -/
theorem Books.named_after (b : Books) (x : Incident) (h : id ∈ b.named) : id ∈ (b.after x).named := by
  unfold after
  split <;> simp [h]

theorem mem_named_append {before : List Incident} (after : List Incident) (h : id ∈ (books before).named) :
    id ∈ (books (before ++ after)).named := by
  induction after using List.reverseRecOn with
  | nil => rwa [List.append_nil]
  | append_singleton after x ih =>
    rw [← List.append_assoc, books_concat]
    exact Books.named_after _ x ih

/-- What holds of everything in a history holds of it when one more thing has happened, if it holds of
that. -/
theorem forall_split_concat {P : List Incident → Incident → Prop} :
    (∀ before y after, past ++ [x] = before ++ y :: after → P before y) ↔
      (∀ before y after, past = before ++ y :: after → P before y) ∧ P past x := by
  constructor
  · intro h
    refine ⟨fun before y after heq => h before y (after ++ [x]) ?_, h past x [] rfl⟩
    rw [heq, List.append_assoc, List.cons_append]
  · rintro ⟨hpast, hlast⟩ before y after heq
    rcases List.eq_nil_or_concat after with rfl | ⟨after, z, rfl⟩
    · obtain ⟨rfl, hx⟩ := List.append_inj' heq rfl
      cases hx
      exact hlast
    · have hend : past ++ [x] = before ++ y :: after ++ [z] := by simpa using heq
      exact hpast before y after (List.append_inj' hend rfl).1

theorem standing_concat : Standing (past ++ [x]) id ↔ id ∈ ((books past).after x).named ∧
    (∀ before y after, past = before ++ y :: after → id ∈ (books before).named → y.spends id = false) ∧
      (id ∈ (books past).named → x.spends id = false) := by
  rw [Standing, books_concat,
    forall_split_concat (P := fun before y => id ∈ (books before).named → y.spends id = false)]

/-- A session that is not created just now stands if it stood before and was not spent. -/
theorem standing_concat_of_named (hnamed : id ∈ ((books past).after x).named ↔ id ∈ (books past).named) :
    Standing (past ++ [x]) id ↔ Standing past id ∧ x.spends id = false := by
  rw [standing_concat, hnamed]
  constructor
  · rintro ⟨hin, hpast, hlast⟩
    exact ⟨⟨hin, hpast⟩, hlast hin⟩
  · rintro ⟨⟨hin, hpast⟩, hlast⟩
    exact ⟨hin, hpast, fun _ => hlast⟩

/-- A session that is created just now stands. -/
theorem standing_concat_of_new (hnamed : id ∈ ((books past).after x).named)
    (hnew : id ∉ (books past).named) : Standing (past ++ [x]) id := by
  refine standing_concat.mpr ⟨hnamed, ?_, fun hin => absurd hin hnew⟩
  rintro before y after rfl hin
  exact absurd (mem_named_append (y :: after) hin) hnew

end Cluster

open Cluster

/-- A cluster together with all that has happened at it. -/
structure Chronicle where
  /-- The cluster. -/
  cluster : Cluster
  /-- What has happened, the first thing first. -/
  past : List Incident

namespace Chronicle

/-- A cluster at which nothing has happened. -/
def begin (g : Generator) : Chronicle := ⟨.fresh g, []⟩

/-- The sessions that exist and the creations under way, taken together. -/
def load (s : Chronicle) : Nat := s.cluster.live + s.cluster.creating

/-- The chronicle with one more thing. -/
def note (s : Chronicle) (x : Incident) (c : Cluster) : Chronicle := ⟨c, s.past ++ [x]⟩

/-- Does something at the cluster, if it is possible.  Only a creation that is unfinished can be answered or
abandoned. -/
def step (s : Chronicle) : Act → Option Chronicle
  | .beginCreate => some (s.note (.begun s.past.length) s.cluster.beginCreate)
  | .endCreate call =>
    let (result, c) := s.cluster.endCreate
    if call ∈ (books s.past).unfinished then some (s.note (.finished call result) c) else none
  | .abandonCreate call =>
    if call ∈ (books s.past).unfinished then some (s.note (.abandoned call) s.cluster.abandonCreate) else none
  | .attach id =>
    let (result, c) := s.cluster.attach id
    some (s.note (.attached id result) c)
  | .send id status => some (s.note .aside (s.cluster.send id status))
  | .takeMessage n => some (s.note .aside (s.cluster.takeMessage n))
  | .kill id => some (s.note (.killed id) (s.cluster.kill id))
  | .delete id =>
    let (result, c) := s.cluster.delete id
    some (s.note (.deleted id result) c)
  | .operate id =>
    let (result, c) := s.cluster.operate id
    some (s.note (.operated id result) c)
  | .failCreates errors => some (s.note (.createsScripted errors) (s.cluster.failCreates errors))
  | .failOperations errors => some (s.note (.operationsScripted errors) (s.cluster.failOperations errors))
  | .setFailureRate rate => some (s.note .aside (s.cluster.setFailureRate rate))

theorem step_endCreate {s : Chronicle} {call : Nat} (h : call ∈ (books s.past).unfinished) :
    s.step (.endCreate call) = some (s.note (.finished call s.cluster.endCreate.1) s.cluster.endCreate.2) :=
  if_pos h

theorem step_abandonCreate {s : Chronicle} {call : Nat} (h : call ∈ (books s.past).unfinished) :
    s.step (.abandonCreate call) = some (s.note (.abandoned call) s.cluster.abandonCreate) :=
  if_pos h

/-- Does things one after another, if each of them is possible. -/
def run (s : Chronicle) : List Act → Option Chronicle
  | [] => some s
  | a :: acts => (s.step a).bind fun s => s.run acts

/-- All states through which the cluster comes, the first one first. -/
def states (s : Chronicle) : List Act → List Chronicle
  | [] => [s]
  | a :: acts => s :: ((s.step a).toList.flatMap fun s => s.states acts)

end Chronicle

end PooledSessions
