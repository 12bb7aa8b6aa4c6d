import PooledSessions.Proofs.Cluster.Sessions
/-!
# The streams of a simulated cluster

A session that is attached to has a stream of its own, which is open, and is usable (`Cluster.Wired`).  A
session that is killed or deleted loses its stream (`Cluster.Cuts`); nothing else but attaching anew changes
which stream belongs to which session.

Whoever listens to the stream of a session may hear of everything that was sent onto it
(`Cluster.Tells`): as long as the stream is the session's, what was sent and says that the session is
unusable waits on it, and if it is not any more, it has ended.  Nothing of this is lost as long as nobody
attaches and nobody reads such a message (`Cluster.Keeps`).
-/

namespace PooledSessions

namespace Cluster

/-! ## Which stream belongs to which session -/

/-- The stream of a session. -/
def link (c : Cluster) (id : SessionId) : Option StreamNo := (c.find? id).bind (·.stream)

theorem find?_modify (c : Cluster) (id k : SessionId) (change : ServerSession → ServerSession) :
    (c.modify id change).find? k = if k = id then (c.find? k).map change else c.find? k := by
  unfold find? modify
  dsimp only
  induction c.sessions with
  | nil => simp
  | cons x sessions ih =>
    obtain ⟨i, s⟩ := x
    by_cases hk : k = i
    · subst hk
      by_cases hid : k = id <;> simp [hid]
    · have hne : (k == i) = false := beq_false_of_ne hk
      by_cases hid : i = id
      · simp only [List.map_cons, hid, if_true, List.lookup_cons, hid ▸ hne]
        exact ih
      · simp only [List.map_cons, if_neg hid, List.lookup_cons, hne]
        exact ih

theorem stream?_endStream (c : Cluster) (o : Option StreamNo) (n : StreamNo) :
    (c.endStream o).stream? n =
      (c.stream? n).map fun s => if o = some n then { s with isOpen := false } else s := by
  cases o with
  | none => simp [endStream]
  | some k =>
    by_cases hk : k = n <;> simp [endStream, stream?, hk]

@[simp] theorem find?_endStream (c : Cluster) (o : Option StreamNo) (id : SessionId) :
    (c.endStream o).find? id = c.find? id := by
  cases o <;> rfl

theorem length_endStream (c : Cluster) (o : Option StreamNo) :
    (c.endStream o).streams.length = c.streams.length := by
  cases o <;> simp [endStream]

/-! ## Sessions that lose their streams -/

/-- Sessions and streams belong together as before. -/
structure Rests (c c' : Cluster) : Prop where
  /-- Every session has its stream. -/
  link : c'.link = c.link
  /-- The streams are the same. -/
  streams : c'.streams = c.streams
  /-- Sessions that have streams can be used as before. -/
  usable : ∀ id n, c.link id = some n → c'.isUsable id = c.isUsable id

/-- A session loses its stream, which ends. -/
structure Cuts (id : SessionId) (c c' : Cluster) : Prop where
  /-- The others have theirs. -/
  link : ∀ k, c'.link k = if k = id then none else c.link k
  /-- Only its stream ends. -/
  stream? : ∀ n, c'.stream? n =
    (c.stream? n).map fun s => if c.link id = some n then { s with isOpen := false } else s
  /-- No stream is opened. -/
  length : c'.streams.length = c.streams.length
  /-- The others can be used as before. -/
  usable : ∀ k, k ≠ id → c'.isUsable k = c.isUsable k

/-- No session comes by a stream, and at most one loses its. -/
inductive Loosens (c c' : Cluster) : Prop
  /-- None loses its stream. -/
  | rests (h : Rests c c')
  /-- One loses its stream. -/
  | cuts (id : SessionId) (h : Cuts id c c')

protected theorem Rests.rfl {c : Cluster} : Rests c c := ⟨rfl, rfl, fun _ _ _ => rfl⟩

theorem Rests.of_eq {c c' : Cluster} (hsessions : c'.sessions = c.sessions)
    (hstreams : c'.streams = c.streams) : Rests c c' where
  link := by
    funext id
    show (c'.sessions.lookup id).bind _ = _
    rw [hsessions]
    rfl
  streams := hstreams
  usable := fun id _ _ => by
    show (c'.sessions.lookup id).any _ = _
    rw [hsessions]
    rfl

theorem Cuts.of_rests {c c' c'' : Cluster} {id : SessionId} (h : Rests c c')
    (hsessions : c'.sessions = c.sessions) (h' : Cuts id c' c'') : Cuts id c c'' where
  link := fun k => by rw [h'.link, h.link]
  stream? := fun n => by
    rw [h'.stream?, h.link, Cluster.stream?, h.streams]
    rfl
  length := by rw [h'.length, h.streams]
  usable := fun k hk => by
    rw [h'.usable k hk]
    show (c'.sessions.lookup k).any _ = _
    rw [hsessions]
    rfl

theorem cuts_kill (c : Cluster) (id : SessionId) : Cuts id c (c.kill id) where
  link := fun k => by
    rw [link, kill, find?_modify, find?_endStream]
    by_cases hk : k = id
    · simp only [hk, if_true]
      cases c.find? id <;> rfl
    · simp only [hk, if_false]
      rfl
  stream? := fun n => stream?_endStream c (c.link id) n
  length := length_endStream c (c.link id)
  usable := fun k hk => by
    rw [isUsable, kill, find?_modify, find?_endStream, if_neg hk]
    rfl

theorem loosens_delete (c : Cluster) (id : SessionId) : Loosens c (c.delete id).2 := by
  unfold delete
  split
  · exact .rests .rfl
  · rename_i s hs
    have hlink : c.link id = s.stream := by rw [link, hs]; rfl
    have hfind : ∀ k, List.lookup k ((c.endStream s.stream).sessions.filter (·.1 ≠ id)) =
        if k = id then none else c.find? k := by
      intro k
      rw [Pool.lookup_filter_ne, ← find?_endStream c s.stream k]
      rfl
    refine .cuts id ⟨fun k => ?_, fun n => ?_, length_endStream c _, fun k hk => ?_⟩
    · rw [link, find?, hfind]
      by_cases hk : k = id
      · simp [hk]
      · simp only [hk, if_false]
        rfl
    · rw [hlink]
      exact stream?_endStream c s.stream n
    · rw [isUsable, find?, hfind, if_neg hk]
      rfl

theorem loosens_bereft {c c' : Cluster} (hsessions : c'.sessions = c.sessions)
    (hstreams : c'.streams = c.streams) (id : SessionId) (e : RpcError) : Loosens c (c'.bereft id e) := by
  have hrests : Rests c c' := .of_eq hsessions hstreams
  unfold bereft
  split
  · exact .cuts id (Cuts.of_rests hrests hsessions (cuts_kill c' id))
  · exact .rests hrests

/-- Of the operations on a session, those lose it its stream that fail because it is gone. -/
theorem loosens_operate (c : Cluster) (id : SessionId) : Loosens c (c.operate id).2 := by
  have hoperates := c.operates id
  generalize c.operate id = answered at hoperates ⊢
  cases hoperates with
  | scripted e rest => refine loosens_bereft ?_ ?_ id e <;> rfl
  | refused => exact .rests .rfl
  | injected n g => refine loosens_bereft ?_ ?_ id _ <;> rfl
  | succeeds g => exact .rests (.of_eq rfl rfl)

/-- A creation brings a session that is not attached to. -/
theorem rests_endCreate (c : Cluster) (hnew : sessionName (c.created + 1) ∉ c.names) :
    Rests c c.endCreate.2 := by
  have hnone : c.find? (sessionName (c.created + 1)) = none := Pool.lookup_eq_none_iff_notMem.mpr hnew
  unfold endCreate
  dsimp only
  split
  · exact .of_eq rfl rfl
  · have hfind : ∀ id, id ≠ sessionName (c.created + 1) →
        List.lookup id ((sessionName (c.created + 1), (⟨sessionNode (c.created + 1), true, none⟩ :
          ServerSession)) :: c.sessions) = c.find? id := by
      intro id hid
      rw [List.lookup_cons, beq_false_of_ne hid]
      rfl
    refine ⟨funext fun id => ?_, rfl, fun id n hn => ?_⟩
    · by_cases hid : id = sessionName (c.created + 1)
      · rw [hid, link, link, hnone]
        simp [find?]
      · show (List.lookup id _).bind _ = _
        rw [hfind id hid]
        rfl
    · have hid : id ≠ sessionName (c.created + 1) := by
        rintro rfl
        rw [link, hnone] at hn
        cases hn
      show (List.lookup id _).any _ = _
      rw [hfind id hid]
      rfl

/-! ## Sessions that can be used -/

theorem isUsable_of_sessions {c c' : Cluster} (hsessions : c'.sessions = c.sessions) (id : SessionId) :
    c'.isUsable id = c.isUsable id := by
  rw [isUsable, find?, hsessions]
  rfl

/-- A session that was killed cannot be used. -/
theorem isUsable_kill (c : Cluster) (k id : SessionId) :
    (c.kill k).isUsable id = true ↔ c.isUsable id = true ∧ k ≠ id := by
  by_cases hid : id = k
  · subst hid
    rw [isUsable, kill, find?_modify, if_pos rfl, Option.any_map]
    simp
  · rw [(cuts_kill c k).usable id hid]
    exact (and_iff_left (Ne.symm hid)).symm

theorem isUsable_bereft (c : Cluster) (k id : SessionId) (e : RpcError) :
    (c.bereft k e).isUsable id = true ↔ c.isUsable id = true ∧ ¬ (k = id ∧ e.isSessionStatus = true) := by
  unfold bereft
  split
  · rename_i hstatus
    rw [isUsable_kill, not_and_or, or_iff_left (not_not.mpr hstatus)]
  · rename_i hstatus
    exact (and_iff_left fun h => hstatus h.2).symm

/-- A session that was deleted cannot be used. -/
theorem isUsable_delete (c : Cluster) (k id : SessionId) :
    (c.delete k).2.isUsable id = true ↔ c.isUsable id = true ∧ k ≠ id := by
  unfold delete
  split
  · rename_i hnone
    refine (and_iff_left_of_imp fun husable => ?_).symm
    rintro rfl
    rw [isUsable, hnone] at husable
    cases husable
  · rename_i s _
    have hfind : List.lookup id ((c.endStream s.stream).sessions.filter (·.1 ≠ k)) =
        if id = k then none else c.find? id := by
      rw [Pool.lookup_filter_ne, ← find?_endStream c s.stream id]
      rfl
    rw [isUsable, find?, hfind]
    by_cases hid : id = k
    · simp [hid]
    · rw [if_neg hid]
      exact (and_iff_left (Ne.symm hid)).symm

/-- A session that was created can be used. -/
theorem isUsable_endCreate (c : Cluster) (id : SessionId) :
    c.endCreate.2.isUsable id = true ↔
      (∃ s, c.endCreate.1 = .ok s ∧ s.id = id) ∨ c.isUsable id = true := by
  have hcreates := c.creates
  generalize c.endCreate = answered at hcreates ⊢
  cases hcreates with
  | scripted e rest => exact (or_iff_right fun ⟨_, hanswer, _⟩ => by cases hanswer).symm
  | succeeds =>
    by_cases hid : id = sessionName (c.created + 1)
    · simp [isUsable, find?, hid]
    · simp [isUsable, find?, List.lookup_cons, beq_false_of_ne hid, Ne.symm hid]

/-! ## Attaching, sending and reading -/

/-- Attaching fails without a change, or opens a stream for the session. -/
theorem attach_cases (c : Cluster) (id : SessionId) :
    (∃ e, c.attach id = (.error e, c)) ∨
      (c.isUsable id = true ∧ (c.attach id).1 = .ok c.streams.length ∧
        (∀ k, (c.attach id).2.link k = if k = id then some c.streams.length else c.link k) ∧
        (c.attach id).2.streams = (c.endStream (c.link id)).streams ++ [⟨[.ready], true⟩] ∧
        ∀ k, (c.attach id).2.isUsable k = c.isUsable k) := by
  unfold attach
  split
  · exact Or.inl ⟨_, rfl⟩
  · rename_i s hs
    split
    · rename_i halive
      -- the old stream of the session ends, and the new one is put at the end of the list
      have hlink : c.link id = s.stream := by rw [link, hs]; rfl
      refine Or.inr ⟨by rw [isUsable, hs]; exact halive, rfl, fun k => ?_, ?_, fun k => ?_⟩
      · rw [link, find?_modify]
        by_cases hk : k = id
        · simp only [hk, if_true]
          show ((((c.endStream s.stream).find? id).map _).bind _) = _
          rw [find?_endStream, hs]
          rfl
        · simp only [hk, if_false]
          show ((c.endStream s.stream).find? k).bind _ = _
          rw [find?_endStream]
          rfl
      · rw [hlink]
        rfl
      · rw [isUsable, find?_modify]
        show (if k = id then ((c.endStream s.stream).find? k).map _ else (c.endStream s.stream).find? k).any _
          = _
        rw [find?_endStream]
        by_cases hk : k = id
        · rw [if_pos hk, isUsable]
          cases c.find? k <;> rfl
        · rw [if_neg hk]
          rfl
    · exact Or.inl ⟨_, rfl⟩

theorem isUsable_attach (c : Cluster) (k id : SessionId) :
    (c.attach k).2.isUsable id = c.isUsable id := by
  rcases c.attach_cases k with ⟨e, hfails⟩ | ⟨-, -, -, -, husable⟩
  · rw [hfails]
  · exact husable id

/-! ## Wiring -/

/-- Each session that is attached to is usable, and has an open stream of its own. -/
structure Wired (c : Cluster) : Prop where
  /-- The session can be used. -/
  usable : ∀ id n, c.link id = some n → c.isUsable id = true
  /-- The stream is open. -/
  isOpen : ∀ id n, c.link id = some n → ∃ s, c.stream? n = some s ∧ s.isOpen = true
  /-- No two sessions share a stream. -/
  apart : ∀ id k n, c.link id = some n → c.link k = some n → id = k

/-- A cluster onto whose streams the given messages were sent. -/
structure Carries (c : Cluster) (sent : List (StreamNo × SessionStatus)) : Prop where
  /-- Each session that is attached to has its own stream. -/
  wired : c.Wired
  /-- The streams onto which something was sent were opened. -/
  known : ∀ x ∈ sent, x.1 < c.streams.length
  /-- What waits on the streams and says that sessions are unusable was sent. -/
  waits : ∀ n s, c.stream? n = some s → ∀ code, .unusable code ∈ s.waiting → (n, .unusable code) ∈ sent

/-- What somebody may still hear of a session on a stream onto which the given messages were sent: as long
as the stream is the session's, whatever says that the session is unusable waits on it; and if it is not any
more, it has ended. -/
def Tells (c : Cluster) (sent : List (StreamNo × SessionStatus)) (id : SessionId) (n : StreamNo) : Prop :=
  (c.link id = some n ∧ ∀ code, (n, .unusable code) ∈ sent →
    ∃ s, c.stream? n = some s ∧ .unusable code ∈ s.waiting) ∨
  (c.link id = none ∧ ∃ s, c.stream? n = some s ∧ s.isOpen = false)

/-- A session is not attached to, or was said to be unusable. -/
def Unfit (c : Cluster) (sent : List (StreamNo × SessionStatus)) (id : SessionId) : Prop :=
  c.link id = none ∨ ∃ n code, c.link id = some n ∧ (n, .unusable code) ∈ sent

/-- A session can be used and is attached to by a stream that is open, and nothing that was sent onto this
stream says that the session is unusable. -/
def Fit (c : Cluster) (sent : List (StreamNo × SessionStatus)) (id : SessionId) : Prop :=
  ∃ s n stream, c.find? id = some s ∧ s.alive = true ∧ s.stream = some n ∧
    c.stream? n = some stream ∧ stream.isOpen = true ∧ ∀ code, (n, .unusable code) ∉ sent

/-- Between two states of a cluster, while more was sent, nothing is lost of what can be heard. -/
structure Keeps (c : Cluster) (sent : List (StreamNo × SessionStatus)) (c' : Cluster)
    (sent' : List (StreamNo × SessionStatus)) : Prop where
  /-- The streams carry what was sent. -/
  carries : c'.Carries sent'
  /-- Whoever listens may hear of everything. -/
  tells : ∀ id n, c.Tells sent id n → c'.Tells sent' id n
  /-- A session that cannot be used any more stays so. -/
  unfit : ∀ id, c.Unfit sent id → c'.Unfit sent' id
  /-- No session is attached to. -/
  link : ∀ id, c.link id = none → c'.link id = none

variable {c c' : Cluster} {sent sent' : List (StreamNo × SessionStatus)} {id : SessionId}
  {n : StreamNo}

theorem Wired.lt_length (h : c.Wired) (hlink : c.link id = some n) : n < c.streams.length := by
  obtain ⟨s, hs, -⟩ := h.isOpen id n hlink
  exact (List.getElem?_eq_some_iff.mp hs).1

/-- Nobody else's session has a stream that is listened to. -/
theorem Tells.eq_of_link (h : c.Tells sent id n) (hwired : c.Wired) {k : SessionId}
    (hlink : c.link k = some n) : k = id := by
  rcases h with ⟨hid, -⟩ | ⟨-, s, hs, hclosed⟩
  · exact hwired.apart k id n hlink hid
  · obtain ⟨s', hs', hopen⟩ := hwired.isOpen k n hlink
    cases hs.symm.trans hs'
    rw [hopen] at hclosed
    cases hclosed

theorem Unfit.not_fit (h : c.Unfit sent id) : ¬ c.Fit sent id := by
  rintro ⟨s, n, stream, hs, -, hstream, -, -, hnever⟩
  have hlink : c.link id = some n := by rw [Cluster.link, hs]; exact hstream
  rcases h with hnone | ⟨n', code, hlink', hsent⟩
  · rw [hlink] at hnone
    cases hnone
  · rw [hlink] at hlink'
    cases hlink'
    exact hnever code hsent

theorem Wired.fit (h : c.Wired) (hlink : c.link id = some n) (hnever : ∀ code, (n, .unusable code) ∉ sent) :
    c.Fit sent id := by
  obtain ⟨stream, hstream, hopen⟩ := h.isOpen id n hlink
  obtain ⟨s, hs, hn⟩ := Option.bind_eq_some_iff.mp hlink
  have halive := h.usable id n hlink
  rw [isUsable, hs] at halive
  exact ⟨s, n, stream, hs, halive, hn, hstream, hopen, hnever⟩

/-- A session that is fit for use can be used. -/
theorem Fit.isUsable (h : c.Fit sent id) : c.isUsable id = true := by
  obtain ⟨s, -, -, hs, halive, -⟩ := h
  rw [Cluster.isUsable, hs]
  exact halive

protected theorem Keeps.rfl (h : c.Carries sent) : Keeps c sent c sent :=
  ⟨h, fun _ _ => id, fun _ => id, fun _ => id⟩

/-! ### When a session loses its stream -/

theorem Rests.stream? (h : Rests c c') (n : StreamNo) : c'.stream? n = c.stream? n := by
  rw [Cluster.stream?, h.streams]
  rfl

theorem Loosens.wired (h : Loosens c c') (hwired : c.Wired) : c'.Wired := by
  cases h with
  | rests h =>
    refine ⟨fun id n hn => ?_, fun id n hn => ?_, ?_⟩
    · rw [h.link] at hn
      rw [h.usable id n hn, hwired.usable id n hn]
    · rw [h.stream?]
      exact hwired.isOpen id n (h.link ▸ hn)
    · rw [h.link]
      exact hwired.apart
  | cuts gone h =>
    have hlink : ∀ {k n}, c'.link k = some n → k ≠ gone ∧ c.link k = some n := by
      intro k n hn
      rw [h.link] at hn
      split at hn
      · cases hn
      · exact ⟨‹_›, hn⟩
    refine ⟨fun id n hn => ?_, fun id n hn => ?_, fun id k n hid hk => ?_⟩
    · rw [h.usable id (hlink hn).1]
      exact hwired.usable id n (hlink hn).2
    · obtain ⟨hne, hn⟩ := hlink hn
      obtain ⟨s, hs, hopen⟩ := hwired.isOpen id n hn
      have hother : c.link gone ≠ some n := fun hgone => hne (hwired.apart id gone n hn hgone)
      exact ⟨s, by rw [h.stream?, hs, Option.map_some, if_neg hother], hopen⟩
    · exact hwired.apart id k n (hlink hid).2 (hlink hk).2

theorem Loosens.length (h : Loosens c c') : c'.streams.length = c.streams.length := by
  cases h with
  | rests h => rw [h.streams]
  | cuts gone h => exact h.length

/-- What waits on a stream stays there. -/
theorem Loosens.waiting (h : Loosens c c') (n : StreamNo) :
    (c'.stream? n).map (·.waiting) = (c.stream? n).map (·.waiting) := by
  cases h with
  | rests h => rw [h.stream?]
  | cuts gone h =>
    rw [h.stream?, Option.map_map]
    congr 1
    funext s
    simp only [Function.comp_apply]
    split <;> rfl

theorem Loosens.carries (h : Loosens c c') (hcarries : c.Carries sent) : c'.Carries sent where
  wired := h.wired hcarries.wired
  known := h.length ▸ hcarries.known
  waits := fun n s hs code hcode => by
    have hwaiting := h.waiting n
    rw [hs, Option.map_some, eq_comm, Option.map_eq_some_iff] at hwaiting
    obtain ⟨s₀, hs₀, heq⟩ := hwaiting
    exact hcarries.waits n s₀ hs₀ code (heq ▸ hcode)

/-- Whoever listens to the stream that a session loses finds that it has ended. -/
theorem Loosens.tells (h : Loosens c c') (hwired : c.Wired) (htells : c.Tells sent id n) :
    c'.Tells sent id n := by
  cases h with
  | rests h =>
    rw [Tells, h.link, h.stream?]
    exact htells
  | cuts gone h =>
    rw [Tells, h.link, h.stream?]
    rcases htells with ⟨hlink, hcodes⟩ | ⟨hlink, s, hs, hclosed⟩
    -- only the stream of the session that is gone ends
    · by_cases hid : id = gone
      · right
        obtain ⟨s, hs, -⟩ := hwired.isOpen id n hlink
        rw [if_pos hid, hs, ← hid, hlink]
        exact ⟨rfl, { s with isOpen := false }, by simp, rfl⟩
      · left
        rw [if_neg hid]
        refine ⟨hlink, fun code hcode => ?_⟩
        obtain ⟨s, hs, hin⟩ := hcodes code hcode
        rw [hs]
        refine ⟨_, rfl, ?_⟩
        split <;> exact hin
    · right
      refine ⟨by rw [hlink, ite_self], ?_⟩
      rw [hs]
      refine ⟨_, rfl, ?_⟩
      split
      · rfl
      · exact hclosed

theorem Loosens.unfit (h : Loosens c c') (hunfit : c.Unfit sent id) : c'.Unfit sent id := by
  cases h with
  | rests h =>
    rw [Unfit, h.link]
    exact hunfit
  | cuts gone h =>
    by_cases hid : id = gone
    · exact Or.inl ((h.link id).trans (if_pos hid))
    · rw [Unfit, h.link, if_neg hid]
      exact hunfit

theorem Loosens.link_eq_none (h : Loosens c c') (hlink : c.link id = none) : c'.link id = none := by
  cases h with
  | rests h => rw [h.link, hlink]
  | cuts gone h => rw [h.link, hlink, ite_self]

theorem Loosens.keeps (h : Loosens c c') (hcarries : c.Carries sent) : Keeps c sent c' sent where
  carries := h.carries hcarries
  tells := fun _ _ => h.tells hcarries.wired
  unfit := fun _ => h.unfit
  link := fun _ => h.link_eq_none

/-! ### When a message is sent -/

/-- What is sent when somebody sends a message about a session: nothing if it is not attached to. -/
def sending (c : Cluster) (id : SessionId) (status : SessionStatus) : List (StreamNo × SessionStatus) :=
  (c.link id).toList.map (·, status)

theorem mem_sending {k : SessionId} {status : SessionStatus} {x : StreamNo × SessionStatus} :
    x ∈ c.sending k status ↔ c.link k = some x.1 ∧ x.2 = status := by
  obtain ⟨n, s⟩ := x
  simp only [sending, List.mem_map, Option.mem_toList, Prod.mk.injEq]
  constructor
  · rintro ⟨m, hm, rfl, rfl⟩
    exact ⟨hm, rfl⟩
  · rintro ⟨hn, rfl⟩
    exact ⟨n, hn, rfl, rfl⟩

theorem sessions_send (c : Cluster) (k : SessionId) (status : SessionStatus) :
    (c.send k status).sessions = c.sessions := by
  unfold send
  split <;> rfl

theorem link_send (c : Cluster) (k : SessionId) (status : SessionStatus) :
    (c.send k status).link = c.link := by
  funext id
  rw [link, find?, sessions_send]
  rfl

theorem length_send (c : Cluster) (k : SessionId) (status : SessionStatus) :
    (c.send k status).streams.length = c.streams.length := by
  unfold send
  split
  · rfl
  · exact List.length_modify _ _ _

theorem stream?_send (c : Cluster) (k : SessionId) (status : SessionStatus) (n : StreamNo) :
    (c.send k status).stream? n = (c.stream? n).map fun s =>
      if c.link k = some n then { s with waiting := s.waiting ++ [status] } else s := by
  unfold send
  split
  · rename_i hnone
    have hlink : c.link k = none := hnone
    simp [hlink]
  · rename_i m hm
    have hlink : c.link k = some m := hm
    by_cases hn : m = n <;> simp [stream?, hlink, hn]

theorem Carries.send (h : c.Carries sent) (k : SessionId) (status : SessionStatus) :
    (c.send k status).Carries (sent ++ c.sending k status) where
  wired := by
    refine ⟨fun id n hn => ?_, fun id n hn => ?_, ?_⟩
    · rw [isUsable, find?, sessions_send]
      exact h.wired.usable id n (link_send c k status ▸ hn)
    · obtain ⟨s, hs, hopen⟩ := h.wired.isOpen id n (link_send c k status ▸ hn)
      rw [stream?_send, hs]
      refine ⟨_, rfl, ?_⟩
      split <;> exact hopen
    · rw [link_send]
      exact h.wired.apart
  known := fun x hx => by
    rw [length_send]
    rcases List.mem_append.mp hx with hx | hx
    · exact h.known x hx
    · exact h.wired.lt_length (mem_sending.mp hx).1
  waits := fun n s hs code hcode => by
    rw [stream?_send, Option.map_eq_some_iff] at hs
    obtain ⟨s₀, hs₀, rfl⟩ := hs
    split at hcode
    · rename_i hk
      rcases List.mem_append.mp hcode with hcode | hcode
      · exact List.mem_append_left _ (h.waits n s₀ hs₀ code hcode)
      · exact List.mem_append_right _ (mem_sending.mpr ⟨hk, List.mem_singleton.mp hcode⟩)
    · exact List.mem_append_left _ (h.waits n s₀ hs₀ code hcode)

/-- What is sent about a session waits on its stream. -/
theorem Tells.send (h : c.Carries sent) (htells : c.Tells sent id n) (k : SessionId)
    (status : SessionStatus) : (c.send k status).Tells (sent ++ c.sending k status) id n := by
  rw [Tells, link_send, stream?_send]
  rcases htells with ⟨hid, hcodes⟩ | ⟨hid, s, hs, hclosed⟩
  · obtain ⟨s, hs, -⟩ := h.wired.isOpen id n hid
    refine Or.inl ⟨hid, fun code hcode => ?_⟩
    rw [hs]
    refine ⟨_, rfl, ?_⟩
    rcases List.mem_append.mp hcode with hcode | hcode
    · obtain ⟨s', hs', hin⟩ := hcodes code hcode
      cases hs.symm.trans hs'
      split
      · exact List.mem_append_left _ hin
      · exact hin
    · obtain ⟨hk, hstatus⟩ := mem_sending.mp hcode
      simp only [if_pos hk]
      exact List.mem_append_right _ (List.mem_singleton.mpr hstatus)
  · refine Or.inr ⟨hid, ?_⟩
    rw [hs]
    refine ⟨_, rfl, ?_⟩
    split <;> exact hclosed

theorem Carries.keeps_send (h : c.Carries sent) (k : SessionId) (status : SessionStatus) :
    Keeps c sent (c.send k status) (sent ++ c.sending k status) where
  carries := h.send k status
  tells := fun _ _ htells => htells.send h k status
  unfit := fun id hunfit => by
    rw [Unfit, link_send]
    exact hunfit.imp_right fun ⟨n, code, hid, hsent⟩ => ⟨n, code, hid, List.mem_append_left _ hsent⟩
  link := fun id hid => by rw [link_send, hid]

/-! ### When a message is read -/

theorem stream?_takeMessage (c : Cluster) (k n : StreamNo) :
    (c.takeMessage k).stream? n = (c.stream? n).map fun s =>
      if k = n then { s with waiting := s.waiting.tail } else s := by
  by_cases hn : k = n <;> simp [takeMessage, stream?, hn]

theorem Carries.takeMessage (h : c.Carries sent) (k : StreamNo) : (c.takeMessage k).Carries sent where
  wired := by
    refine ⟨h.wired.usable, fun id n hn => ?_, h.wired.apart⟩
    obtain ⟨s, hs, hopen⟩ := h.wired.isOpen id n hn
    rw [stream?_takeMessage, hs]
    refine ⟨_, rfl, ?_⟩
    split <;> exact hopen
  known := by
    rw [Cluster.takeMessage, List.length_modify]
    exact h.known
  waits := fun n s hs code hcode => by
    rw [stream?_takeMessage, Option.map_eq_some_iff] at hs
    obtain ⟨s₀, hs₀, rfl⟩ := hs
    refine h.waits n s₀ hs₀ code ?_
    split at hcode
    · exact List.mem_of_mem_tail hcode
    · exact hcode

/-- Reading a message costs only those who listen for the same session to the same stream, and only if it
says that the session is unusable. -/
theorem Tells.takeMessage (htells : c.Tells sent id n) {k : StreamNo} {s : StatusStream}
    {message : SessionStatus} {rest : List SessionStatus} (hs : c.stream? k = some s)
    (hwaiting : s.waiting = message :: rest) (hother : message = .ready ∨ c.link id ≠ some k) :
    (c.takeMessage k).Tells sent id n := by
  rw [Tells, stream?_takeMessage]
  rcases htells with ⟨hid, hcodes⟩ | ⟨hid, s₀, hs₀, hclosed⟩
  · refine Or.inl ⟨hid, fun code hcode => ?_⟩
    obtain ⟨s₀, hs₀, hin⟩ := hcodes code hcode
    rw [hs₀]
    refine ⟨_, rfl, ?_⟩
    by_cases hk : k = n
    · subst hk
      rw [hs] at hs₀
      cases hs₀
      rcases hother with rfl | hne
      · simp only [if_true, hwaiting, List.tail_cons]
        rw [hwaiting] at hin
        exact (List.mem_cons.mp hin).resolve_left (by simp)
      · exact absurd hid hne
    · simp only [if_neg hk]
      exact hin
  · refine Or.inr ⟨hid, ?_⟩
    rw [hs₀]
    refine ⟨_, rfl, ?_⟩
    split <;> exact hclosed

/-! ### When somebody attaches -/

section Attach

variable {k : SessionId} (hunattached : c.link k = none) {m : StreamNo} (hok : (c.attach k).1 = .ok m)

include hunattached hok

/-- Attaching to a session that nobody was attached to opens a stream for it. -/
theorem attach_of_ok : c.isUsable k = true ∧ m = c.streams.length ∧
    (∀ id, (c.attach k).2.link id = if id = k then some m else c.link id) ∧
    (c.attach k).2.streams = c.streams ++ [⟨[.ready], true⟩] ∧
    ∀ id, (c.attach k).2.isUsable id = c.isUsable id := by
  rcases attach_cases c k with ⟨e, he⟩ | ⟨husable, hok', hlink, hstreams, hsame⟩
  · rw [he] at hok
    cases hok
  · rw [hok] at hok'
    cases hok'
    rw [hunattached] at hstreams
    exact ⟨husable, rfl, hlink, hstreams, hsame⟩

/-- The streams that were opened before are as they were. -/
theorem stream?_attach (hn : n < c.streams.length) : (c.attach k).2.stream? n = c.stream? n := by
  obtain ⟨-, -, -, hstreams, -⟩ := attach_of_ok hunattached hok
  rw [Cluster.stream?, hstreams, List.getElem?_append_left hn]
  rfl

theorem stream?_attach_self : (c.attach k).2.stream? m = some ⟨[.ready], true⟩ := by
  obtain ⟨-, rfl, -, hstreams, -⟩ := attach_of_ok hunattached hok
  rw [Cluster.stream?, hstreams, List.getElem?_append_right (Nat.le_refl _), Nat.sub_self]
  rfl

theorem Carries.attach (h : c.Carries sent) : (c.attach k).2.Carries sent := by
  obtain ⟨husable, hm, hlink, hstreams, hsame⟩ := attach_of_ok hunattached hok
  -- the other sessions keep their streams, and this one has the new stream
  have hold : ∀ {id n}, id ≠ k → (c.attach k).2.link id = some n → c.link id = some n := by
    intro id n hid hn
    rwa [hlink, if_neg hid] at hn
  have hnew : ∀ {n}, (c.attach k).2.link k = some n → n = m := by
    intro n hn
    rw [hlink, if_pos rfl] at hn
    exact (Option.some.inj hn).symm
  refine ⟨⟨fun id n hn => ?_, fun id n hn => ?_, fun i j n hi hj => ?_⟩, fun x hx => ?_, fun n s hs => ?_⟩
  · rw [hsame]
    by_cases hid : id = k
    · exact hid ▸ husable
    · exact h.wired.usable id n (hold hid hn)
  · by_cases hid : id = k
    · subst hid
      rw [hnew hn]
      exact ⟨_, stream?_attach_self hunattached hok, rfl⟩
    · have hn := hold hid hn
      rw [stream?_attach hunattached hok (h.wired.lt_length hn)]
      exact h.wired.isOpen id n hn
  · by_cases hik : i = k <;> by_cases hjk : j = k
    · rw [hik, hjk]
    · subst hik
      exact absurd (hm ▸ hnew hi) (Nat.ne_of_lt (h.wired.lt_length (hold hjk hj)))
    · subst hjk
      exact absurd (hm ▸ hnew hj) (Nat.ne_of_lt (h.wired.lt_length (hold hik hi)))
    · exact h.wired.apart i j n (hold hik hi) (hold hjk hj)
  · rw [hstreams, List.length_append]
    exact Nat.lt_add_right _ (h.known x hx)
  · by_cases hn : n < c.streams.length
    · rw [stream?_attach hunattached hok hn] at hs
      exact h.waits n s hs
    · have hlt := (List.getElem?_eq_some_iff.mp hs).1
      rw [hstreams, List.length_append, List.length_singleton] at hlt
      obtain rfl : n = m := hm ▸ Nat.le_antisymm (Nat.le_of_lt_succ hlt) (Nat.le_of_not_lt hn)
      cases (stream?_attach_self hunattached hok).symm.trans hs
      simp

theorem Tells.attach (h : c.Carries sent) (htells : c.Tells sent id n) (hid : id ≠ k) :
    (c.attach k).2.Tells sent id n := by
  obtain ⟨-, -, hlink, -, -⟩ := attach_of_ok hunattached hok
  rw [Tells, hlink, if_neg hid]
  rcases htells with ⟨hn, hcodes⟩ | ⟨hnone, s, hs, hclosed⟩
  · rw [stream?_attach hunattached hok (h.wired.lt_length hn)]
    exact Or.inl ⟨hn, hcodes⟩
  · rw [stream?_attach hunattached hok (List.getElem?_eq_some_iff.mp hs).1]
    exact Or.inr ⟨hnone, s, hs, hclosed⟩

/-- Nothing was sent yet onto the stream that is opened. -/
theorem Carries.tells_attach (h : c.Carries sent) : (c.attach k).2.Tells sent k m := by
  obtain ⟨-, hm, hlink, -, -⟩ := attach_of_ok hunattached hok
  refine Or.inl ⟨(hlink k).trans (if_pos rfl), fun code hcode => ?_⟩
  exact absurd hm (Nat.ne_of_lt (h.known _ hcode))

theorem Unfit.attach (hunfit : c.Unfit sent id) (hid : id ≠ k) : (c.attach k).2.Unfit sent id := by
  obtain ⟨-, -, hlink, -, -⟩ := attach_of_ok hunattached hok
  rw [Unfit, hlink, if_neg hid]
  exact hunfit

end Attach

end Cluster

end PooledSessions
