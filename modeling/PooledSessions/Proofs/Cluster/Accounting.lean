import PooledSessions.Proofs.Cluster.History
import PooledSessions.Simulation.ClusterScenario
/-!
# The accounts of a simulated cluster

After every run the accounts of a cluster are in order (`Chronicle.Accounts`): what it counts and what is
scripted for it are what the books of its history say (`Cluster.Tallied`), the sessions that can be used are
those that stand, every answer fitted what had happened before, and the load never was above the peak.  Each
act is followed once (`Chronicle.Accounts.recorded`), and the runs follow from it.
-/

namespace PooledSessions

namespace Cluster

variable {b : Books} {c c' : Cluster} {past : List Incident} {id : SessionId}

/-! ## The sessions that can be used -/

/-- Attaching succeeds on the sessions that can be used, and changes nothing about them. -/
theorem attach_ok_iff (c : Cluster) (id : SessionId) :
    (∃ stream, (c.attach id).1 = .ok stream) ↔ c.isUsable id = true := by
  unfold attach isUsable
  split
  · rename_i hnone
    simp [hnone]
  · rename_i s hs
    split
    · rename_i halive
      simp [hs, halive]
    · rename_i hdead
      simp [hs, hdead]

/-- Of the sessions, an operation can only cost the one that it runs on, and costs it if it fails because the
session is gone. -/
theorem isUsable_operate_iff (c : Cluster) (k id : SessionId) :
    (c.operate k).2.isUsable id = true ↔
      c.isUsable id = true ∧ (Incident.operated k (c.operate k).1).spends id = false := by
  have hspends : ∀ (c' : Cluster) (e : RpcError), c'.sessions = c.sessions →
      ((c'.bereft k e).isUsable id = true ↔
        c.isUsable id = true ∧ (Incident.operated k (.error e)).spends id = false) := by
    intro c' e hsessions
    rw [isUsable_bereft, isUsable_of_sessions hsessions]
    simp [Incident.spends]
  have hoperates := c.operates k
  generalize c.operate k = answered at hoperates ⊢
  cases hoperates with
  | scripted e rest => exact hspends _ e rfl
  | refused hscript hunusable =>
    refine (and_iff_left_of_imp fun husable => ?_).symm
    have hne : k ≠ id := by
      rintro rfl
      rw [hunusable] at husable
      cases husable
    simp [Incident.spends, hne]
  | injected n g => exact hspends _ _ rfl
  | succeeds g => exact (and_iff_left rfl).symm

/-! ## What a cluster counts -/

/-- What a cluster counts and what is scripted for it are what the books of its history say.  The creations
that have begun are those that are unfinished, those that brought a session, those that failed and those that
were abandoned; the sessions that were created have all got different names; and the operations that
succeeded have answered 1, 2, 3 and so on. -/
structure Tallied (b : Books) (t : Tally) : Prop where
  /-- The creations under way are those that are unfinished. -/
  creating : t.creating = b.unfinished.length
  /-- The failures of creations are those that are scripted. -/
  createFailures : t.createFailures = b.createScript
  /-- The failures of operations are those that are scripted. -/
  operationFailures : t.operationFailures = b.operationScript
  /-- The sessions that were created are numbered. -/
  named : namesUpTo t.created = b.named.reverse
  /-- Every creation is counted once. -/
  createCalls : t.createCalls = t.created + b.refusals + b.abandonments + t.creating
  /-- Every deletion is counted once. -/
  deleted : t.deleted = b.removed.length
  /-- The operations that succeeded are numbered. -/
  outcomes : b.outcomes = List.range' 1 t.operations

theorem length_namesUpTo (n : Nat) : (namesUpTo n).length = n := by
  induction n with
  | zero => rfl
  | succ n ih => rw [namesUpTo, List.length_cons, ih]

theorem nodup_namesUpTo (n : Nat) : (namesUpTo n).Nodup := by
  induction n with
  | zero => exact List.nodup_nil
  | succ n ih => exact List.nodup_cons.mpr ⟨sessionName_notMem n, ih⟩

namespace Tallied

/-- A creation that is unfinished is counted. -/
theorem creating_pos {t : Tally} (h : Tallied b t) {call : Nat} (hcall : call ∈ b.unfinished) :
    0 < t.creating :=
  h.creating ▸ List.length_pos_of_mem hcall

/-- A creation that ends is not counted any more. -/
theorem creating_erase {t : Tally} (h : Tallied b t) {call : Nat} (hcall : call ∈ b.unfinished) :
    t.creating - 1 = (b.unfinished.erase call).length := by
  rw [List.length_erase_of_mem hcall, h.creating]

theorem beginCreate (h : Tallied b c.tally) (call : Nat) :
    Tallied (b.after (.begun call)) c.beginCreate.tally where
  creating := by
    rw [Books.after, List.length_append, ← h.creating]
    rfl
  createFailures := h.createFailures
  operationFailures := h.operationFailures
  named := h.named
  createCalls := congrArg (· + 1) h.createCalls
  deleted := h.deleted
  outcomes := h.outcomes

theorem abandonCreate (h : Tallied b c.tally) {call : Nat} (hcall : call ∈ b.unfinished) :
    Tallied (b.after (.abandoned call)) c.abandonCreate.tally where
  creating := h.creating_erase hcall
  createFailures := h.createFailures
  operationFailures := h.operationFailures
  named := h.named
  createCalls := by
    have hpos : 0 < c.creating := h.creating_pos hcall
    have hcalls : c.createCalls = c.created + b.refusals + b.abandonments + c.creating := h.createCalls
    show c.createCalls = c.created + b.refusals + (b.abandonments + 1) + (c.creating - 1)
    omega
  deleted := h.deleted
  outcomes := h.outcomes

theorem endCreate (h : Tallied b c.tally) {call : Nat} (hcall : call ∈ b.unfinished) :
    Tallied (b.after (.finished call c.endCreate.1)) c.endCreate.2.tally := by
  have hpos : 0 < c.creating := h.creating_pos hcall
  have hcalls : c.createCalls = c.created + b.refusals + b.abandonments + c.creating := h.createCalls
  have hfailures : c.createFailures = b.createScript := h.createFailures
  have hcreates := c.creates
  generalize c.endCreate = answered at hcreates ⊢
  cases hcreates with
  | scripted e rest hscript =>
    refine ⟨h.creating_erase hcall, ?_, h.operationFailures, h.named, ?_, h.deleted, h.outcomes⟩
    · show rest = b.createScript.tail
      rw [← hfailures, hscript, List.tail_cons]
    · show c.createCalls = c.created + (b.refusals + 1) + b.abandonments + (c.creating - 1)
      omega
  | succeeds hscript =>
    refine ⟨h.creating_erase hcall, ?_, h.operationFailures, ?_, ?_, h.deleted, h.outcomes⟩
    · show c.createFailures = b.createScript.tail
      rw [← hfailures, hscript, List.tail_nil]
    · rw [Books.after, List.reverse_concat, ← h.named]
      rfl
    · show c.createCalls = c.created + 1 + b.refusals + b.abandonments + (c.creating - 1)
      omega

theorem delete (h : Tallied b c.tally) (id : SessionId) :
    Tallied (b.after (.deleted id (c.delete id).1)) (c.delete id).2.tally := by
  by_cases hid : id ∈ c.names
  · obtain ⟨hanswer, htally⟩ := tally_delete hid
    rw [hanswer, htally]
    refine ⟨h.creating, h.createFailures, h.operationFailures, h.named, h.createCalls, ?_, h.outcomes⟩
    rw [Books.after, List.length_append, ← h.deleted]
    rfl
  · rw [delete_of_notMem hid]
    exact h

theorem failCreates (h : Tallied b c.tally) (errors : List RpcError) :
    Tallied (b.after (.createsScripted errors)) (c.failCreates errors).tally :=
  ⟨h.creating, congrArg (· ++ errors) h.createFailures, h.operationFailures, h.named, h.createCalls,
    h.deleted, h.outcomes⟩

theorem failOperations (h : Tallied b c.tally) (errors : List RpcError) :
    Tallied (b.after (.operationsScripted errors)) (c.failOperations errors).tally :=
  ⟨h.creating, h.createFailures, congrArg (· ++ errors) h.operationFailures, h.named, h.createCalls,
    h.deleted, h.outcomes⟩

/-- An operation that fails takes the next failure that is scripted. -/
theorem operate_fails (h : Tallied b c.tally) (id : SessionId) (e : RpcError) {script : List RpcError}
    (hscript : script = c.operationFailures.tail) :
    Tallied (b.after (.operated id (.error e))) { c.tally with operationFailures := script } :=
  ⟨h.creating, h.createFailures, hscript.trans (congrArg List.tail h.operationFailures), h.named,
    h.createCalls, h.deleted, h.outcomes⟩

theorem operate (h : Tallied b c.tally) (id : SessionId) :
    Tallied (b.after (.operated id (c.operate id).1)) (c.operate id).2.tally := by
  have hoperates := c.operates id
  generalize c.operate id = answered at hoperates ⊢
  cases hoperates with
  | scripted e rest hscript =>
    rw [tally_bereft]
    exact h.operate_fails id e (by rw [hscript, List.tail_cons])
  | refused hscript => exact h.operate_fails id _ (by rw [hscript, List.tail_nil])
  | injected n g hscript =>
    rw [tally_bereft]
    exact h.operate_fails id _ (by rw [hscript, List.tail_nil])
  | succeeds g hscript =>
    refine ⟨h.creating, h.createFailures, ?_, h.named, h.createCalls, h.deleted, ?_⟩
    · show c.operationFailures = b.operationScript.tail
      rw [← h.operationFailures]
      show c.operationFailures = c.operationFailures.tail
      rw [hscript, List.tail_nil]
    · have houtcomes : b.outcomes = List.range' 1 c.operations := h.outcomes
      show b.outcomes ++ [c.operations + 1] = List.range' 1 (c.operations + 1)
      rw [List.range'_concat, houtcomes, Nat.one_mul, Nat.add_comm]

end Tallied

end Cluster

open Cluster

namespace Chronicle

variable {s s' : Chronicle} {x : Incident} {c : Cluster}

/-! ## What one act does -/

/-- The accounts of a cluster are in order. -/
structure Accounts (s : Chronicle) : Prop where
  /-- It counts what the books of its history say. -/
  tallied : Tallied (books s.past) s.cluster.tally
  /-- The sessions that exist are those that were created and not deleted. -/
  balanced : s.cluster.Balanced ((books s.past).removed.map fun id => (id, some (.ok ())))
  /-- The sessions that stand can be used. -/
  usable : ∀ id, s.cluster.isUsable id = true ↔ Standing s.past id
  /-- Every answer fitted what had happened before. -/
  fits : ∀ before x after, s.past = before ++ x :: after → Fits before x
  /-- The load is not above the peak. -/
  load : s.load ≤ s.cluster.peakLoad

/-- What a cluster whose accounts are in order needs for them to stay so when `x` happens and it becomes `c`,
and how its peak changes. -/
structure Recorded (s : Chronicle) (x : Incident) (c : Cluster) : Prop where
  /-- It counts what the books say. -/
  tallied : Tallied ((books s.past).after x) c.tally
  /-- The sessions that exist are those that were created and not deleted. -/
  balanced : c.Balanced (((books s.past).after x).removed.map fun id => (id, some (.ok ())))
  /-- The sessions that stand can be used. -/
  usable : ∀ id, c.isUsable id = true ↔ Standing (s.past ++ [x]) id
  /-- The answer fits what had happened before. -/
  fits : Fits s.past x
  /-- The peak follows the load. -/
  peak : c.peakLoad = max s.cluster.peakLoad (s.note x c).load

theorem Recorded.accounts (h : s.Recorded x c) (hs : s.Accounts) : (s.note x c).Accounts where
  tallied := by
    rw [note, books_concat]
    exact h.tallied
  balanced := by
    rw [note, books_concat]
    exact h.balanced
  usable := h.usable
  fits := forall_split_concat.mpr ⟨hs.fits, h.fits⟩
  load := by
    show (s.note x c).load ≤ c.peakLoad
    rw [h.peak]
    exact Nat.le_max_right _ _

namespace Accounts

theorem begin (g : Generator) : (Chronicle.begin g).Accounts where
  tallied := ⟨rfl, rfl, rfl, rfl, rfl, rfl, rfl⟩
  balanced := balanced_fresh g
  usable := fun id => by
    constructor
    · intro h
      cases h
    · rintro ⟨hin, -⟩
      cases hin
  fits := fun before x after heq => by
    cases before <;> cases heq
  load := Nat.le_refl _

/-- If the load does not grow, the peak stays. -/
theorem peak_of_le (h : s.Accounts) (hpeak : c.peakLoad = s.cluster.peakLoad)
    (hload : c.live + c.creating ≤ s.load) : c.peakLoad = max s.cluster.peakLoad (s.note x c).load := by
  rw [hpeak, Nat.max_eq_left]
  exact Nat.le_trans hload h.load

/-- If no session is created, those that could be used and are not spent can be used. -/
theorem usable_of_named (h : s.Accounts) (hnamed : ((books s.past).after x).named = (books s.past).named)
    (husable : ∀ id, c.isUsable id = true ↔ s.cluster.isUsable id = true ∧ x.spends id = false)
    (id : SessionId) : c.isUsable id = true ↔ Standing (s.past ++ [x]) id := by
  rw [standing_concat_of_named (by rw [hnamed]), husable, h.usable]

/-- Things that happen and are not counted. -/
theorem recorded_of_tally (h : s.Accounts) (htally : c.tally = s.cluster.tally)
    (hbooks : (books s.past).after x = books s.past)
    (husable : ∀ id, c.isUsable id = true ↔ s.cluster.isUsable id = true ∧ x.spends id = false)
    (hfits : Fits s.past x) : s.Recorded x c where
  tallied := by
    rw [htally, hbooks]
    exact h.tallied
  balanced := by
    rw [hbooks]
    exact h.balanced.of_steady (.of_tally htally)
  usable := h.usable_of_named (by rw [hbooks]) husable
  fits := hfits
  peak := by
    have hlive : c.live = s.cluster.live := by
      rw [← length_names, ← length_names]
      exact congrArg (·.names.length) htally
    have hcreating : c.creating = s.cluster.creating := congrArg Tally.creating htally
    refine h.peak_of_le (congrArg Tally.peakLoad htally) ?_
    rw [hlive, hcreating]
    exact Nat.le_refl _

theorem recorded_aside (h : s.Accounts) (htally : c.tally = s.cluster.tally)
    (husable : ∀ id, c.isUsable id = s.cluster.isUsable id) : s.Recorded .aside c :=
  h.recorded_of_tally htally rfl (fun id => by rw [husable]; exact (and_iff_left rfl).symm) trivial

theorem recorded_beginCreate (h : s.Accounts) (call : Nat) :
    s.Recorded (.begun call) s.cluster.beginCreate where
  tallied := h.tallied.beginCreate call
  balanced := h.balanced.of_steady ⟨rfl, rfl, rfl⟩
  usable := h.usable_of_named rfl fun _ => (and_iff_left rfl).symm
  fits := trivial
  peak := rfl

theorem recorded_abandonCreate (h : s.Accounts) {call : Nat} (hcall : call ∈ (books s.past).unfinished) :
    s.Recorded (.abandoned call) s.cluster.abandonCreate where
  tallied := h.tallied.abandonCreate hcall
  balanced := h.balanced.of_steady ⟨rfl, rfl, rfl⟩
  usable := h.usable_of_named rfl fun _ => (and_iff_left rfl).symm
  fits := trivial
  peak := h.peak_of_le rfl (Nat.add_le_add_left (Nat.sub_le _ _) _)

/-- The next session has a name that is not written down. -/
theorem next_notMem (h : s.Accounts) : sessionName (s.cluster.created + 1) ∉ (books s.past).named := by
  rw [← List.mem_reverse, ← h.tallied.named]
  exact sessionName_notMem _

theorem recorded_endCreate (h : s.Accounts) {call : Nat} (hcall : call ∈ (books s.past).unfinished) :
    s.Recorded (.finished call s.cluster.endCreate.1) s.cluster.endCreate.2 := by
  have htallied := h.tallied.endCreate hcall
  have hbalanced := h.balanced.endCreate
  have husable := s.cluster.isUsable_endCreate
  have hpos : 0 < s.cluster.creating := h.tallied.creating_pos hcall
  have hfailures : s.cluster.createFailures = (books s.past).createScript := h.tallied.createFailures
  have hcreates := s.cluster.creates
  generalize s.cluster.endCreate = answered at htallied hbalanced husable hcreates ⊢
  cases hcreates with
  | scripted e rest hscript =>
    refine ⟨htallied, hbalanced, h.usable_of_named rfl fun _ => (and_iff_left rfl).symm, ?_, ?_⟩
    · rw [Fits, ← hfailures, hscript]
    · exact h.peak_of_le rfl (Nat.add_le_add_left (Nat.sub_le _ _) _)
  | succeeds hscript =>
    refine ⟨htallied, hbalanced, fun id => ?_, ?_, ?_⟩
    · rw [husable id]
      by_cases hid : sessionName (s.cluster.created + 1) = id
      · subst hid
        exact iff_of_true (Or.inl ⟨_, rfl, rfl⟩) (standing_concat_of_new List.mem_concat_self h.next_notMem)
      · rw [standing_concat_of_named (by simp [Books.after, Ne.symm hid]), h.usable id]
        simp [hid, Incident.spends]
    · rw [Fits, ← hfailures, hscript]
      exact ⟨_, rfl, h.next_notMem⟩
    · refine h.peak_of_le rfl ?_
      show s.cluster.live + 1 + (s.cluster.creating - 1) ≤ s.cluster.live + s.cluster.creating
      omega

theorem recorded_attach (h : s.Accounts) (id : SessionId) :
    s.Recorded (.attached id (s.cluster.attach id).1) (s.cluster.attach id).2 :=
  h.recorded_of_tally (tally_attach s.cluster id) rfl
    (fun k => by rw [isUsable_attach]; exact (and_iff_left rfl).symm)
    ((s.cluster.attach_ok_iff id).trans (h.usable id))

theorem recorded_kill (h : s.Accounts) (id : SessionId) :
    s.Recorded (.killed id) (s.cluster.kill id) :=
  h.recorded_of_tally (tally_kill s.cluster id) rfl
    (fun k => by rw [isUsable_kill, Incident.spends, decide_eq_false_iff_not]) trivial

/-- The deletion of a session that exists lowers the load. -/
theorem recorded_delete (h : s.Accounts) (id : SessionId) :
    s.Recorded (.deleted id (s.cluster.delete id).1) (s.cluster.delete id).2 := by
  have htallied := h.tallied.delete id
  have husable := s.cluster.isUsable_delete id
  by_cases hid : id ∈ s.cluster.names
  · obtain ⟨hanswer, htally⟩ := tally_delete hid
    have hbalanced := h.balanced.delete hid
    rw [hanswer] at htallied hbalanced ⊢
    refine ⟨htallied, ?_, h.usable_of_named rfl fun k => ?_, trivial, ?_⟩
    · rw [Books.after, List.map_append]
      exact hbalanced
    · rw [husable, Incident.spends, decide_eq_false_iff_not]
    · refine h.peak_of_le (congrArg Tally.peakLoad htally) ?_
      have hnames : (s.cluster.delete id).2.names = s.cluster.names.filter (· ≠ id) := congrArg Tally.names htally
      have hcreating : (s.cluster.delete id).2.creating = s.cluster.creating := congrArg Tally.creating htally
      rw [← length_names, hnames, hcreating]
      exact Nat.add_le_add_right ((List.length_filter_le _ _).trans_eq (length_names _)) _
  · rw [delete_of_notMem hid]
    exact h.recorded_of_tally rfl rfl (fun _ => (and_iff_left rfl).symm) trivial

/-- An operation succeeds only on a session that can be used. -/
theorem fits_operate (h : s.Accounts) (id : SessionId) :
    Fits s.past (.operated id (s.cluster.operate id).1) := by
  have hfailures : s.cluster.operationFailures = (books s.past).operationScript := h.tallied.operationFailures
  rw [Fits, ← hfailures]
  have hoperates := s.cluster.operates id
  generalize s.cluster.operate id = answered at hoperates ⊢
  cases hoperates with
  | scripted e rest hscript => rw [hscript]
  | refused hscript =>
    rw [hscript]
    rintro n ⟨⟩
  | injected n g hscript =>
    rw [hscript]
    rintro n ⟨⟩
  | succeeds g hscript husable =>
    rw [hscript]
    exact fun _ _ => (h.usable id).mp husable

theorem recorded_operate (h : s.Accounts) (id : SessionId) :
    s.Recorded (.operated id (s.cluster.operate id).1) (s.cluster.operate id).2 := by
  obtain ⟨n, htally⟩ := s.cluster.tally_operate id
  have hnames : (s.cluster.operate id).2.names = s.cluster.names := congrArg Tally.names htally
  have hcreating : (s.cluster.operate id).2.creating = s.cluster.creating := congrArg Tally.creating htally
  refine ⟨h.tallied.operate id, ?_, h.usable_of_named ?_ (s.cluster.isUsable_operate_iff id ·),
    h.fits_operate id, h.peak_of_le (congrArg Tally.peakLoad htally) ?_⟩
  · cases (s.cluster.operate id).1 <;> exact h.balanced.of_steady (s.cluster.steady_operate id)
  · cases (s.cluster.operate id).1 <;> rfl
  · rw [← length_names, hnames, hcreating, length_names]
    exact Nat.le_refl _

/-- Whatever is done at a cluster whose accounts are in order, they stay so. -/
theorem recorded (h : s.Accounts) {a : Act} (hstep : s.step a = some s') :
    ∃ x c, s' = s.note x c ∧ s.Recorded x c := by
  cases a with
  | beginCreate =>
    cases hstep
    exact ⟨_, _, rfl, h.recorded_beginCreate _⟩
  | endCreate call =>
    obtain ⟨hcall, heq⟩ := Option.ite_none_right_eq_some.mp hstep
    cases heq
    exact ⟨_, _, rfl, h.recorded_endCreate hcall⟩
  | abandonCreate call =>
    obtain ⟨hcall, heq⟩ := Option.ite_none_right_eq_some.mp hstep
    cases heq
    exact ⟨_, _, rfl, h.recorded_abandonCreate hcall⟩
  | attach id =>
    cases hstep
    exact ⟨_, _, rfl, h.recorded_attach id⟩
  | send id status =>
    cases hstep
    exact ⟨_, _, rfl, h.recorded_aside (tally_send s.cluster id status)
      (isUsable_of_sessions (sessions_send s.cluster id status))⟩
  | takeMessage n =>
    cases hstep
    exact ⟨_, _, rfl, h.recorded_aside rfl fun _ => rfl⟩
  | kill id =>
    cases hstep
    exact ⟨_, _, rfl, h.recorded_kill id⟩
  | delete id =>
    cases hstep
    exact ⟨_, _, rfl, h.recorded_delete id⟩
  | operate id =>
    cases hstep
    exact ⟨_, _, rfl, h.recorded_operate id⟩
  | failCreates errors =>
    cases hstep
    refine ⟨_, _, rfl, h.tallied.failCreates errors, h.balanced.of_steady ⟨rfl, rfl, rfl⟩,
      h.usable_of_named rfl fun _ => (and_iff_left rfl).symm, trivial, h.peak_of_le rfl (Nat.le_refl _)⟩
  | failOperations errors =>
    cases hstep
    refine ⟨_, _, rfl, h.tallied.failOperations errors, h.balanced.of_steady ⟨rfl, rfl, rfl⟩,
      h.usable_of_named rfl fun _ => (and_iff_left rfl).symm, trivial, h.peak_of_le rfl (Nat.le_refl _)⟩
  | setFailureRate rate =>
    cases hstep
    exact ⟨_, _, rfl, h.recorded_aside rfl fun _ => rfl⟩

theorem step (h : s.Accounts) {a : Act} (hstep : s.step a = some s') : s'.Accounts := by
  obtain ⟨x, c, rfl, hrecorded⟩ := h.recorded hstep
  exact hrecorded.accounts h

theorem peak_step (h : s.Accounts) {a : Act} (hstep : s.step a = some s') :
    s'.cluster.peakLoad = max s.cluster.peakLoad s'.load := by
  obtain ⟨x, c, rfl, hrecorded⟩ := h.recorded hstep
  exact hrecorded.peak

/-! ## Runs -/

theorem run {acts : List Act} (h : s.Accounts) (hrun : s.run acts = some s') : s'.Accounts := by
  induction acts generalizing s with
  | nil =>
    cases hrun
    exact h
  | cons a acts ih =>
    obtain ⟨t, hstep, hrun⟩ := Option.bind_eq_some_iff.mp hrun
    exact ih (h.step hstep) hrun

/-- The peak is the largest of the peak at the beginning and the loads of all states since then. -/
theorem isGreatest_of_run {acts : List Act} (h : s.Accounts) (hrun : s.run acts = some s') :
    IsGreatest ({s.cluster.peakLoad} ∪ {n | ∃ t ∈ s.states acts, t.load = n}) s'.cluster.peakLoad := by
  induction acts generalizing s with
  | nil =>
    cases hrun
    refine ⟨Or.inl rfl, ?_⟩
    rintro n (rfl | ⟨t, ht, rfl⟩)
    · exact Nat.le_refl _
    · rw [List.mem_singleton.mp ht]
      exact h.load
  | cons a acts ih =>
    obtain ⟨t, hstep, hrun⟩ := Option.bind_eq_some_iff.mp hrun
    -- each step raises the peak just as far as the load it leads to
    have hpeak := h.peak_step hstep
    have hstates : s.states (a :: acts) = s :: t.states acts := by
      rw [states, hstep, Option.toList_some, List.flatMap_singleton]
    have hfirst : t ∈ t.states acts := by
      cases acts <;> exact List.mem_cons_self
    obtain ⟨hmem, hupper⟩ := ih (h.step hstep) hrun
    rw [hstates]
    constructor
    · rcases hmem with hsame | ⟨u, hu, hload⟩
      · rw [Set.mem_singleton_iff.mp hsame, hpeak]
        rcases Nat.le_total s.cluster.peakLoad t.load with hle | hle
        · rw [Nat.max_eq_right hle]
          exact Or.inr ⟨t, List.mem_cons_of_mem _ hfirst, rfl⟩
        · rw [Nat.max_eq_left hle]
          exact Or.inl rfl
      · exact Or.inr ⟨u, List.mem_cons_of_mem _ hu, hload⟩
    · have hbefore : s.cluster.peakLoad ≤ s'.cluster.peakLoad :=
        Nat.le_trans (hpeak ▸ Nat.le_max_left _ _) (hupper (Or.inl rfl))
      rintro n (rfl | ⟨u, hu, rfl⟩)
      · exact hbefore
      · rcases List.mem_cons.mp hu with rfl | hu
        · exact Nat.le_trans h.load hbefore
        · exact hupper (Or.inr ⟨u, hu, rfl⟩)

/-- A session on which something succeeded stood. -/
theorem standing_of_uses (h : s.Accounts) {before after : List Incident} {id : SessionId}
    (hpast : s.past = before ++ x :: after) (huses : x.uses id = true) : Standing before id := by
  have hfits := h.fits before x after hpast
  cases x with
  | attached k result =>
    cases result with
    | error e => cases huses
    | ok stream =>
      obtain rfl : k = id := of_decide_eq_true huses
      exact hfits.mp ⟨stream, rfl⟩
  | operated k result =>
    cases result with
    | error e => cases huses
    | ok n =>
      obtain rfl : k = id := of_decide_eq_true huses
      rw [Fits] at hfits
      split at hfits
      · cases hfits
      · exact hfits n rfl
  | _ => cases huses

end Accounts

/-- The accounts of a cluster after every run.  The sessions that were created are those that were deleted
and those that exist; each creation that has begun is unfinished, has brought a session, has failed as
scripted or was abandoned; the peak is the largest load of all states; no two sessions were created under
one name; scripted failures are answered in order, one by each creation that ends and by each operation; an
operation succeeds, and attaching does, only on a session that was created and since then neither killed nor
deleted, and so never again on one that was; and the operations that succeeded have answered 1, 2, 3 and so
on. -/
theorem accounts_of_run (g : Generator) (acts : List Act) (hrun : (begin g).run acts = some s) :
    s.cluster.created = s.cluster.deleted + s.cluster.live ∧
    (s.cluster.creating = (books s.past).unfinished.length ∧
      s.cluster.created = (books s.past).named.length ∧
      s.cluster.deleted = (books s.past).removed.length) ∧
    s.cluster.createCalls = s.cluster.created + (books s.past).refusals + (books s.past).abandonments +
      s.cluster.creating ∧
    IsGreatest {n | ∃ t ∈ (begin g).states acts, t.load = n} s.cluster.peakLoad ∧
    (books s.past).named.Nodup ∧
    (s.cluster.createFailures = (books s.past).createScript ∧
      s.cluster.operationFailures = (books s.past).operationScript) ∧
    (∀ before x after, s.past = before ++ x :: after →
      Fits before x ∧ ∀ id, x.uses id = true → Standing before id) ∧
    (∀ before x between y after id, s.past = before ++ x :: between ++ y :: after →
      id ∈ (books before).named → x.spends id = true → y.uses id = false) ∧
    (books s.past).outcomes = List.range' 1 s.cluster.operations := by
  have h : s.Accounts := (Accounts.begin g).run hrun
  have hnamed : namesUpTo s.cluster.created = (books s.past).named.reverse := h.tallied.named
  refine ⟨h.balanced.conserved, ⟨h.tallied.creating, ?_, h.tallied.deleted⟩, h.tallied.createCalls, ?_, ?_,
    ⟨h.tallied.createFailures, h.tallied.operationFailures⟩, ?_, ?_, h.tallied.outcomes⟩
  · rw [← length_namesUpTo s.cluster.created, hnamed, List.length_reverse]
  · have hfirst : begin g ∈ (begin g).states acts := by
      cases acts <;> exact List.mem_cons_self
    have hpeak := (Accounts.begin g).isGreatest_of_run hrun
    -- the first state has the load with which the peak begins
    rwa [Set.union_eq_self_of_subset_left] at hpeak
    rintro n rfl
    exact ⟨_, hfirst, rfl⟩
  · rw [← List.nodup_reverse, ← hnamed]
    exact nodup_namesUpTo _
  · exact fun before x after hpast => ⟨h.fits before x after hpast, fun id => h.standing_of_uses hpast⟩
  · intro before x between y after id hpast hin hspends
    by_contra huses
    -- a use would need a session that stands, which a session that was spent before does not
    have hstands := h.standing_of_uses hpast (Bool.eq_true_of_not_eq_false huses)
    rw [hstands.2 before x between rfl hin] at hspends
    cases hspends

/-- Of three creations the first one fails as scripted, the second one is abandoned, and the third one brings
a session.  An operation on it succeeds; the session is killed, so another operation fails; and it is
deleted. -/
def createAndKill : List Act :=
  [.failCreates [.status .overloaded "full"], .beginCreate, .beginCreate, .beginCreate, .endCreate 1,
    .abandonCreate 2, .endCreate 3, .operate (sessionName 1), .kill (sessionName 1),
    .operate (sessionName 1), .delete (sessionName 1)]

theorem accounts_of_run_of_createAndKill : ∃ s, (begin ⟨1⟩).run createAndKill = some s ∧
    s.cluster.created = 1 ∧ s.cluster.createCalls = 3 ∧ (books s.past).refusals = 1 ∧
    (books s.past).abandonments = 1 ∧ s.cluster.creating = 0 ∧
    s.cluster.createCalls = s.cluster.created + (books s.past).refusals + (books s.past).abandonments +
      s.cluster.creating ∧
    IsGreatest {n | ∃ t ∈ (begin ⟨1⟩).states createAndKill, t.load = n} s.cluster.peakLoad ∧
    (books s.past).outcomes = List.range' 1 s.cluster.operations := by
  obtain ⟨-, -, hcalls, hpeak, -, -, -, -, houtcomes⟩ := accounts_of_run ⟨1⟩ createAndKill rfl
  exact ⟨_, rfl, rfl, rfl, rfl, rfl, rfl, hcalls, hpeak, houtcomes⟩

end Chronicle

/-! ## Scenarios -/

namespace ClusterScene

/-- Operations that are run one after the other. -/
theorem run_replicate (s : Chronicle) (id : SessionId) (times : Nat) :
    ∃ s', s.run (List.replicate times (.operate id)) = some s' ∧
      s'.cluster = (run id times s.cluster).2 := by
  induction times generalizing s with
  | zero => exact ⟨s, rfl, rfl⟩
  | succ times ih => exact ih (s.note (.operated id (s.cluster.operate id).1) (s.cluster.operate id).2)

/-- A creation begins and, if its latency does not pass within the time limit, is abandoned. -/
theorem run_create (s : ClusterScene) (past : List Incident) (within : Option Nat) :
    ∃ acts s', (Chronicle.mk s.server.cluster past).run acts = some s' ∧
      s'.cluster = (s.create within).2.server.cluster := by
  let begun : Chronicle := ⟨s.server.cluster.beginCreate, past ++ [.begun past.length]⟩
  have hcall : past.length ∈ (books begun.past).unfinished := by
    simp [begun, Books.after]
  unfold create
  dsimp only
  split
  · refine ⟨[.beginCreate, .abandonCreate past.length],
      begun.note (.abandoned past.length) begun.cluster.abandonCreate, ?_, rfl⟩
    show (begun.step (.abandonCreate past.length)).bind _ = _
    rw [Chronicle.step_abandonCreate hcall]
    rfl
  · refine ⟨[.beginCreate, .endCreate past.length],
      begun.note (.finished past.length begun.cluster.endCreate.1) begun.cluster.endCreate.2, ?_, rfl⟩
    show (begun.step (.endCreate past.length)).bind _ = _
    rw [Chronicle.step_endCreate hcall]
    rfl

/-- Whatever a scenario plays at a cluster is a run of acts. -/
theorem exists_run_of_step (s : ClusterScene) (past : List Incident) (step : ClusterStep) :
    ∃ acts s', (Chronicle.mk s.server.cluster past).run acts = some s' ∧
      s'.cluster = (s.step step).2.server.cluster := by
  cases step with
  | server step =>
    cases step with
    | kill id => exact ⟨[.kill id], _, rfl, rfl⟩
    | send id status => exact ⟨[.send id status], _, rfl, rfl⟩
    | failCreates errors => exact ⟨[.failCreates errors], _, rfl, rfl⟩
    | failOperations errors => exact ⟨[.failOperations errors], _, rfl, rfl⟩
    | setFailureRate rate => exact ⟨[.setFailureRate rate], _, rfl, rfl⟩
    | _ => exact ⟨[], _, rfl, rfl⟩
  | create within => exact s.run_create past within
  | attach id =>
    refine ⟨[.attach id], _, rfl, ?_⟩
    show (s.server.cluster.attach id).2 = _
    unfold ClusterScene.step
    dsimp only
    generalize s.server.cluster.attach id = answered
    obtain ⟨answer, c⟩ := answered
    cases answer <;> rfl
  | next id =>
    unfold ClusterScene.step
    dsimp only
    split
    · exact ⟨[], _, rfl, rfl⟩
    · rename_i n hstream
      -- whatever is read, at most the message in front is taken off the stream
      unfold Server.read
      repeat' split
      all_goals first | exact ⟨[], _, rfl, rfl⟩ | exact ⟨[.takeMessage n], _, rfl, rfl⟩
  | dropStream id => exact ⟨[], _, rfl, rfl⟩
  | delete id => exact ⟨[.delete id], _, rfl, rfl⟩
  | run id times => exact ⟨_, run_replicate ⟨s.server.cluster, past⟩ id times⟩
  | waitAttached id =>
    unfold ClusterScene.step
    dsimp only
    split <;> exact ⟨[], _, rfl, rfl⟩

end ClusterScene

end PooledSessions
