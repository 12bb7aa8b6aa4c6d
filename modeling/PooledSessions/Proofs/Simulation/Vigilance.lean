import PooledSessions.Proofs.Simulation.Prompts
import PooledSessions.Proofs.Pool.Watches
import PooledSessions.Proofs.Cluster.Streams
/-!
# Vigilance

A pool is vigilant over the sessions of a cluster (`Engine.Vigilant`) when each tracked session whose flag is
alive has a monitor, which is still to attach or may hear of everything on its stream, and each tracked
session whose flag is dead cannot be used any more.  Three things change independently of each other: the
sessions of the cluster, what waits on the streams, and the flags.  The invariant does not say that they
agree, but that whoever brings them together still can: each move of the pool keeps it, and so does
everything that happens in a world, as long as nobody but the pool attaches (`World.Vigilant.happen`).
-/

namespace PooledSessions

/-- What is asked for a creation leaves sessions and streams alone. -/
theorem Cluster.rests_heed (asked : List Request) (c : Cluster) : Rests c (asked.foldl heed c) := by
  obtain ⟨calls, creating, peak, heq⟩ := foldl_heed asked c
  rw [heq]
  exact .of_eq rfl rfl

namespace Engine

/-! ## Pools over a cluster -/

/-- Each monitor watches a tracked session, and each session has a flag of its own. -/
structure Watched (e : Engine DriverError Int) : Prop where
  /-- The session that a monitor watches is tracked. -/
  tracked : ∀ k ∈ e.monitors, ∃ t, e.pool.find? k.id = some t ∧ t.flag = k.no
  /-- No two sessions share a flag. -/
  apart : ∀ id t id' t', e.pool.find? id = some t → e.pool.find? id' = some t' → t.flag = t'.flag → id = id'
  /-- The flags were given away before. -/
  flag_lt : ∀ id t, e.pool.find? id = some t → t.flag < e.nextNo
  /-- No session is listed twice. -/
  nodup : (e.pool.active.map (·.1)).Nodup

/-- Onto the streams of the cluster the given messages were sent, and the pool is vigilant over the
sessions. -/
structure Vigilant (e : Engine DriverError Int) (c : Cluster) (sent : List (StreamNo × SessionStatus)) :
    Prop where
  /-- The streams carry what was sent. -/
  carries : c.Carries sent
  /-- A tracked session whose flag is alive has its monitor. -/
  guarded : ∀ id t, e.pool.find? id = some t → e.isAlive t.flag = true → ∃ k ∈ e.monitors, k.no = t.flag
  /-- The flag of a session that has a monitor is alive. -/
  alive : ∀ k ∈ e.monitors, e.isAlive k.no = true
  /-- Only the monitor attaches to the session. -/
  attaching : ∀ k ∈ e.monitors, k.watch = .attaching → c.link k.id = none
  /-- A monitor that listens may hear of everything. -/
  listening : ∀ k ∈ e.monitors, ∀ n, k.watch = .listening n → c.Tells sent k.id n
  /-- A tracked session whose flag is dead cannot be used any more. -/
  dead : ∀ id t, e.pool.find? id = some t → e.isAlive t.flag = false → c.Unfit sent id
  /-- The flags that were not given away yet are alive. -/
  unborn : ∀ n, e.nextNo ≤ n → e.isAlive n = true

variable {b e : Engine DriverError Int} {m : Move DriverError Int} {c c' : Cluster}
  {sent sent' : List (StreamNo × SessionStatus)}

theorem Watched.no_eq (hw : b.Watched) {j k : Monitor} (hj : j ∈ b.monitors) (hk : k ∈ b.monitors)
    (hid : j.id = k.id) : j.no = k.no := by
  obtain ⟨t, ht, hflag⟩ := hw.tracked j hj
  obtain ⟨u, hu, hflag'⟩ := hw.tracked k hk
  rw [hid, hu] at ht
  cases ht
  rw [← hflag, hflag']

theorem isAlive_of_flags (hflags : e.flags = b.flags) : e.isAlive = b.isAlive := by
  unfold isAlive
  rw [hflags]

namespace Vigilant

/-- The cluster goes on. -/
theorem keeps (h : b.Vigilant c sent) (hkeeps : Cluster.Keeps c sent c' sent') : b.Vigilant c' sent' where
  carries := hkeeps.carries
  guarded := h.guarded
  alive := h.alive
  attaching := fun k hk hwatch => hkeeps.link k.id (h.attaching k hk hwatch)
  listening := fun k hk n hwatch => hkeeps.tells k.id n (h.listening k hk n hwatch)
  dead := fun id t ht hdead => hkeeps.unfit id (h.dead id t ht hdead)
  unborn := h.unborn

/-- The pool goes on with the sessions that it tracks. -/
theorem attends (h : b.Vigilant c sent) (hw : b.Watched) (hnextNo : b.nextNo ≤ e.nextNo)
    (hattends : Attends b e) : e.Vigilant c sent := by
  have halive := isAlive_of_flags hattends.flags
  refine ⟨h.carries, fun id t ht hlives => ?_, fun k hk => ?_, fun k hk => ?_, fun k hk => ?_,
    fun id t ht hdead => ?_, fun n hn => ?_⟩
  · obtain ⟨t₀, ht₀, hflag⟩ := hattends.tracked id t ht
    rw [halive, ← hflag] at hlives
    obtain ⟨k, hk, hno⟩ := h.guarded id t₀ ht₀ hlives
    rcases hattends.stopped k hk with hin | ⟨id', t', ht', hflag', hnone⟩
    · exact ⟨k, hin, hno.trans hflag⟩
    · -- the monitor would have been stopped only together with this very session
      cases hw.apart id t₀ id' t' ht₀ ht' (hno.symm.trans hflag'.symm)
      rw [ht] at hnone
      cases hnone
  · rw [halive]
    exact h.alive k (hattends.monitors.subset hk)
  · exact h.attaching k (hattends.monitors.subset hk)
  · exact h.listening k (hattends.monitors.subset hk)
  · obtain ⟨t₀, ht₀, hflag⟩ := hattends.tracked id t ht
    rw [halive, ← hflag] at hdead
    exact h.dead id t₀ ht₀ hdead
  · rw [halive]
    exact h.unborn n (hnextNo.trans hn)

/-- A monitor that is not to decide anything leaves the pool vigilant, and so does a new session. -/
theorem of_relieves (h : b.Vigilant c sent) (hw : b.Watched) (hnextNo : b.nextNo ≤ e.nextNo)
    (hrelieves : Relieves m b e) (hm : m.decides = false)
    (hnew : ∀ no s, m = .created no (.ok s) → c.link s.id = none) : e.Vigilant c sent := by
  cases hrelieves with
  | attends _ hattends => exact h.attends hw hnextNo hattends
  | listens k hk n heq => rw [heq] at hm; cases hm
  | condemns k hk hcondemned =>
    rw [Move.decides_of_condemned hcondemned] at hm
    cases hm
  | registers no s heq hflags hmonitors hown hfind =>
    have halive := isAlive_of_flags hflags
    have hborn : b.isAlive b.nextNo = true := h.unborn b.nextNo (Nat.le_refl _)
    -- the flag of the new session is the next number, which is alive since nobody has had it
    have hcases : ∀ id t, e.pool.find? id = some t →
        (id = s.id ∧ t.flag = b.nextNo) ∨ (b.pool.find? id = some t) := by
      intro id t ht
      by_cases hid : id = s.id
      · obtain ⟨t', ht', hflag⟩ := hown
        rw [hid, ht'] at ht
        cases ht
        exact Or.inl ⟨hid, hflag⟩
      · exact Or.inr (hfind id hid ▸ ht)
    have hmonitor : ∀ k ∈ e.monitors, k ∈ b.monitors ∨ k = ⟨b.nextNo, s.id, .attaching⟩ := by
      intro k hk
      rw [hmonitors] at hk
      exact (List.mem_append.mp hk).imp_right List.mem_singleton.mp
    refine ⟨h.carries, fun id t ht hlives => ?_, fun k hk => ?_, fun k hk hwatch => ?_,
      fun k hk n hwatch => ?_, fun id t ht hdead => ?_, fun n hn => ?_⟩
    · rw [hmonitors]
      rcases hcases id t ht with ⟨-, hflag⟩ | hold
      · exact ⟨_, List.mem_append_right _ (List.mem_singleton_self _), hflag.symm⟩
      · obtain ⟨k, hk, hno⟩ := h.guarded id t hold (halive ▸ hlives)
        exact ⟨k, List.mem_append_left _ hk, hno⟩
    · rw [halive]
      rcases hmonitor k hk with hold | rfl
      · exact h.alive k hold
      · exact hborn
    · rcases hmonitor k hk with hold | rfl
      · exact h.attaching k hold hwatch
      · exact hnew no s heq
    · rcases hmonitor k hk with hold | rfl
      · exact h.listening k hold n hwatch
      · cases hwatch
    · rw [halive] at hdead
      rcases hcases id t ht with ⟨-, hflag⟩ | hold
      · rw [hflag, hborn] at hdead
        cases hdead
      · exact h.dead id t hold hdead
    · rw [halive]
      exact h.unborn n (hnextNo.trans hn)

/-- A monitor that has attached to its session listens to a stream onto which nothing was sent yet. -/
theorem of_attached (h : b.Vigilant c sent) (hw : b.Watched) (hnextNo : b.nextNo ≤ e.nextNo)
    {no : TaskNo} {n : StreamNo} (hrelieves : Relieves (.attached no (.ok n)) b e) {id : SessionId}
    (hid : ∀ k ∈ b.monitors, k.no = no → k.id = id) (hok : (c.attach id).1 = .ok n) :
    e.Vigilant (c.attach id).2 sent := by
  cases hrelieves with
  | attends hm => cases hm
  | registers _ _ heq => cases heq
  | condemns _ _ hm => cases hm
  | listens k hk stream heq hwatch hpool hflags hmonitors =>
    cases heq
    obtain rfl := hid k hk rfl
    have halive := isAlive_of_flags hflags
    have hlink := h.attaching k hk hwatch
    -- the monitor that has attached listens now; each other one watches another session
    have hlater : ∀ j ∈ e.monitors, (j.no = k.no ∧ j.watch = .listening n ∧ j.id = k.id) ∨
        (j ∈ b.monitors ∧ j.id ≠ k.id) := by
      intro j hj
      rw [hmonitors] at hj
      obtain ⟨j₀, hj₀, rfl⟩ := List.mem_map.mp hj
      by_cases hno : j₀.no = k.no
      · rw [if_pos hno]
        exact Or.inl ⟨hno, rfl, hid j₀ hj₀ hno⟩
      · rw [if_neg hno]
        exact Or.inr ⟨hj₀, fun hsame => hno (hw.no_eq hj₀ hk hsame)⟩
    refine ⟨h.carries.attach hlink hok, fun i t ht hlives => ?_, fun j hj => ?_, fun j hj hattaching => ?_,
      fun j hj m hlistening => ?_, fun i t ht hdead => ?_, fun m hm => ?_⟩
    · obtain ⟨j, hj, hno⟩ := h.guarded i t (hpool ▸ ht) (halive ▸ hlives)
      rw [hmonitors]
      refine ⟨_, List.mem_map_of_mem hj, ?_⟩
      split <;> exact hno
    · rw [halive]
      rcases hlater j hj with ⟨hno, -, -⟩ | ⟨hold, -⟩
      · rw [hno]
        exact h.alive k hk
      · exact h.alive j hold
    · rcases hlater j hj with ⟨-, hlistens, -⟩ | ⟨hold, hne⟩
      · rw [hlistens] at hattaching
        cases hattaching
      · rw [(Cluster.attach_of_ok hlink hok).2.2.1, if_neg hne]
        exact h.attaching j hold hattaching
    · rcases hlater j hj with ⟨-, hlistens, hself⟩ | ⟨hold, hne⟩
      · rw [hlistens] at hlistening
        cases hlistening
        rw [hself]
        exact h.carries.tells_attach hlink hok
      · exact (h.listening j hold m hlistening).attach hlink hok h.carries hne
    · -- the flag of the session that is attached to is alive
      rw [hpool] at ht
      rw [halive] at hdead
      refine (h.dead i t ht hdead).attach hlink hok fun hself => ?_
      obtain ⟨u, hu, hflag⟩ := hw.tracked k hk
      rw [hself, hu] at ht
      cases ht
      rw [hflag, h.alive k hk] at hdead
      cases hdead
    · rw [halive]
      exact h.unborn m (hnextNo.trans hm)

/-- A monitor that finds its session dead is right if the session cannot be used any more. -/
theorem of_condemned (h : b.Vigilant c sent) (hw : b.Watched) (hnextNo : b.nextNo ≤ e.nextNo)
    (hrelieves : Relieves m b e) {no : TaskNo} (hm : m.condemned? = some no)
    (hunfit : ∀ k ∈ b.monitors, k.no = no → c.Unfit sent k.id) :
    e.Vigilant c sent ∧ ∀ k ∈ e.monitors, k ∈ b.monitors ∧ k.no ≠ no := by
  cases hrelieves with
  | attends hdecides =>
    rw [Move.decides_of_condemned hm] at hdecides
    cases hdecides
  | registers _ _ heq => rw [heq] at hm; cases hm
  | listens _ _ _ heq => rw [heq] at hm; cases hm
  | condemns k hk hcondemned hpool hflags hmonitors =>
    rw [hm] at hcondemned
    cases hcondemned
    have halive : ∀ n, e.isAlive n = (b.isAlive n && n != k.no) := by
      intro n
      rw [isAlive, hflags, Flags.isAlive_markDead]
      rfl
    -- exactly the monitor that decides has ended
    have hleft : ∀ j ∈ e.monitors, j ∈ b.monitors ∧ j.no ≠ k.no := by
      intro j hj
      rw [hmonitors] at hj
      exact ⟨List.mem_of_mem_filter hj, by simpa using (List.mem_filter.mp hj).2⟩
    refine ⟨⟨h.carries, fun i t ht hlives => ?_, fun j hj => ?_, fun j hj => h.attaching j (hleft j hj).1,
      fun j hj => h.listening j (hleft j hj).1, fun i t ht hdead => ?_, fun n hn => ?_⟩, hleft⟩
    · rw [halive, Bool.and_eq_true, bne_iff_ne] at hlives
      obtain ⟨j, hj, hno⟩ := h.guarded i t (hpool ▸ ht) hlives.1
      rw [hmonitors]
      exact ⟨j, List.mem_filter.mpr ⟨hj, by simpa [hno] using hlives.2⟩, hno⟩
    · rw [halive, h.alive j (hleft j hj).1]
      exact bne_iff_ne.mpr (hleft j hj).2
    · rw [hpool] at ht
      by_cases hflag : t.flag = k.no
      · obtain ⟨u, hu, hflag'⟩ := hw.tracked k hk
        obtain rfl := hw.apart i t k.id u ht hu (hflag.trans hflag'.symm)
        exact hunfit k hk rfl
      · refine h.dead i t ht ?_
        rwa [halive, bne_iff_ne.mpr hflag, Bool.and_true] at hdead
    · rw [halive, h.unborn n (hnextNo.trans hn), Bool.true_and, bne_iff_ne]
      obtain ⟨t, ht, hflag⟩ := hw.tracked k hk
      rintro rfl
      exact absurd (hw.flag_lt k.id t ht) (Nat.not_lt.mpr (hflag ▸ hnextNo.trans hn))

/-- Somebody who listens reads a message. -/
theorem takeMessage (h : e.Vigilant c sent) {n : StreamNo} {s : StatusStream} {message : SessionStatus}
    {rest : List SessionStatus} (hs : c.stream? n = some s) (hwaiting : s.waiting = message :: rest)
    (hother : message = .ready ∨ ∀ k ∈ e.monitors, c.link k.id ≠ some n) :
    e.Vigilant (c.takeMessage n) sent :=
  { h with
    carries := h.carries.takeMessage n
    listening := fun k hk m hwatch =>
      (h.listening k hk m hwatch).takeMessage hs hwaiting (hother.imp_right fun hnone => hnone k hk) }

end Vigilant

end Engine

namespace World

/-! ## What is sent -/

/-- What is sent onto streams in a happening. -/
def sending (w : World) : Happening → List (StreamNo × SessionStatus)
  | .server (.send id status) => w.server.cluster.sending id status
  | _ => []

/-- What is sent onto streams in a run. -/
def sent (w : World) : List (Bool × Happening) → List (StreamNo × SessionStatus)
  | [] => []
  | x :: xs =>
    match w.happenAt x with
    | some w' => w.sending x.2 ++ sent w' xs
    | none => []

/-! ## Worlds -/

theorem flags_hear (w : World) (s : Signal DriverError Int) : (w.hear s).engine.flags = w.engine.flags := by
  cases s with
  | operationStarted no info =>
    unfold hear
    dsimp only
    split
    · split
      · unfold Engine.cancel
        split <;> rfl
      · rfl
    · rfl
  | _ => rfl

theorem flags_hearAll (w : World) (e : Engine DriverError Int) : (w.hearAll e).engine.flags = e.flags := by
  have hfold : ∀ (told : List (Signal DriverError Int)) (w : World),
      (told.foldl hear w).engine.flags = w.engine.flags := by
    intro told
    induction told with
    | nil => exact fun _ => rfl
    | cons s told ih => exact fun w => (ih (w.hear s)).trans (flags_hear w s)
  exact hfold e.signals _

variable {w w' : World} {past : List (SessionId × Option (Except RpcError Unit))}
  {sent : List (StreamNo × SessionStatus)}

theorem Custody.watched (h : w.Custody past) : w.engine.Watched where
  tracked := h.atRest.watched
  apart := fun id t id' t' ht ht' hflag =>
    (h.atRest.lent.same_iff id t.flag id' t'.flag (Or.inl ⟨t, ht, rfl⟩) (Or.inl ⟨t', ht', rfl⟩)).mpr hflag
  flag_lt := fun id t ht => h.atRest.flag_lt id t.flag (Or.inl ⟨t, ht, rfl⟩)
  nodup := h.atRest.tables.names_nodup

/-- The server hears what the pool tells in a move. -/
theorem vigilant_hearAll {e : Engine DriverError Int} (h : e.Vigilant w.server.cluster sent) :
    (w.hearAll e).engine.Vigilant (w.hearAll e).server.cluster sent := by
  have hledger := ledger_hearAll w e
  have hpool : (w.hearAll e).engine.pool = e.pool := congrArg Ledger.pool hledger
  have hmonitors : (w.hearAll e).engine.monitors = e.monitors := congrArg Ledger.monitors hledger
  have hnextNo : (w.hearAll e).engine.nextNo = e.nextNo := congrArg Ledger.nextNo hledger
  have halive := Engine.isAlive_of_flags (flags_hearAll w e)
  have hkeeps : Cluster.Keeps w.server.cluster sent (w.hearAll e).server.cluster sent := by
    rw [server_hearAll]
    exact (Cluster.Loosens.rests (Cluster.rests_heed _ _)).keeps h.carries
  refine Engine.Vigilant.keeps ?_ hkeeps
  exact ⟨h.carries, by rw [hpool, halive, hmonitors]; exact h.guarded,
    by rw [halive, hmonitors]; exact h.alive, by rw [hmonitors]; exact h.attaching,
    by rw [hmonitors]; exact h.listening, by rw [hpool, halive]; exact h.dead,
    by rw [hnextNo, halive]; exact h.unborn⟩

/-- The pool of a world is vigilant, and nobody has put errors onto the streams. -/
structure Vigilant (w : World) (sent : List (StreamNo × SessionStatus)) : Prop where
  /-- The pool is vigilant. -/
  engine : w.engine.Vigilant w.server.cluster sent
  /-- The streams carry nothing but what was sent. -/
  faithful : w.server.streamErrors = []

theorem vigilant_begin (setup : Setup) (latency : Span) (g g' : Generator)
    (deeds : TaskNo → Nat → Deed) : (begin setup latency g g' deeds).Vigilant [] where
  engine :=
    { carries :=
        { wired := ⟨fun _ _ hn => (nomatch hn), fun _ _ hn => (nomatch hn), fun _ _ _ hn => (nomatch hn)⟩
          known := by simp
          waits := fun n s hs => by cases n <;> cases hs }
      guarded := fun id t ht => by cases ht
      alive := by simp [begin, fresh, Engine.fresh]
      attaching := by simp [begin, fresh, Engine.fresh]
      listening := by simp [begin, fresh, Engine.fresh]
      dead := fun id t ht => by cases ht
      unborn := fun n _ => Flags.isAlive_fresh n }
  faithful := rfl

/-! ## What the server does -/

/-- What can be read on a stream onto which nobody has put errors. -/
theorem read_eq {s : Server} (hfaithful : s.streamErrors = []) (n : StreamNo) : s.read n =
    match s.cluster.stream? n with
    | none => (.ended, s)
    | some stream =>
      match stream.waiting with
      | m :: _ => (.message (.ok m), s.onCluster (·.takeMessage n))
      | [] => (if stream.isOpen then .nothing else .ended, s) := by
  unfold Server.read
  rw [hfaithful]
  rfl

/-- A stream on which an end is found belongs to no session. -/
theorem link_eq_none_of_ended {s : Server} (hfaithful : s.streamErrors = []) {id : SessionId} {n : StreamNo}
    (hcarries : s.cluster.Carries sent) (htells : s.cluster.Tells sent id n) (hread : (s.read n).1 = .ended) :
    s.cluster.link id = none := by
  rcases htells with ⟨hlink, -⟩ | ⟨hlink, -⟩
  · obtain ⟨stream, hstream, hopen⟩ := hcarries.wired.isOpen id n hlink
    rw [read_eq hfaithful, hstream] at hread
    dsimp only at hread
    split at hread
    · cases hread
    · rw [if_pos hopen] at hread
      cases hread
  · exact hlink

/-- A message that is found on a stream was the next one that waited there. -/
theorem read_message {s server : Server} (hfaithful : s.streamErrors = []) {n : StreamNo}
    {r : Except RpcError SessionStatus} (hread : s.read n = (.message r, server)) :
    ∃ stream message rest, s.cluster.stream? n = some stream ∧ stream.waiting = message :: rest ∧
      r = .ok message ∧ server = s.onCluster (·.takeMessage n) := by
  rw [read_eq hfaithful] at hread
  split at hread
  · cases hread
  · rename_i stream hstream
    split at hread
    · rename_i message rest hwaiting
      cases hread
      exact ⟨stream, message, rest, hstream, hwaiting, rfl, rfl⟩
    · split at hread <;> cases hread

/-! ## What a turn does -/

section Turns

variable {m : Move DriverError Int} {e : Engine DriverError Int}

/-- Most moves decide nothing and name no session; what the server does meanwhile loosens at most what is
attached. -/
theorem Vigilant.still (h : w.Vigilant sent) (hcustody : w.Custody past) {c : Cluster}
    (hstep : w.engine.step w.setup m = some e) (hloosens : Cluster.Loosens w.server.cluster c)
    (hm : m.decides = false) (hnone : ∀ no s, m ≠ .created no (.ok s)) : e.Vigilant c sent :=
  (h.engine.keeps (hloosens.keeps h.engine.carries)).of_relieves hcustody.watched
    (Engine.le_of_step hstep).1 (Engine.relieves_of_step hcustody.watched.nodup hstep) hm
    fun no s heq => absurd heq (hnone no s)

/-- A session that the server creates has no stream yet. -/
theorem Vigilant.created (h : w.Vigilant sent) (hcustody : w.Custody past) {no : TaskNo}
    (hstep : w.engine.step w.setup (.created no w.server.cluster.endCreate.1) = some e) :
    e.Vigilant w.server.cluster.endCreate.2 sent := by
  have hnew : Cluster.sessionName (w.server.cluster.created + 1) ∉ w.server.cluster.names :=
    fun hin => Cluster.sessionName_notMem _ (hcustody.balanced.names_known hin)
  have hrests := Cluster.rests_endCreate _ hnew
  refine (h.engine.keeps ((Cluster.Loosens.rests hrests).keeps h.engine.carries)).of_relieves
    hcustody.watched (Engine.le_of_step hstep).1 (Engine.relieves_of_step hcustody.watched.nodup hstep)
    rfl fun no s heq => ?_
  rw [hrests.link]
  rcases w.server.cluster.endCreate_cases with ⟨error, herror, -⟩ | ⟨hok, -⟩
  · rw [herror] at heq
    cases heq
  · rw [hok] at heq
    cases heq
    rw [Cluster.link, Cluster.find?, Pool.lookup_eq_none_iff_notMem.mpr hnew]
    rfl

/-- A monitor that takes its session for dead is right if the session cannot be used any more. -/
theorem Vigilant.condemned (h : w.Vigilant sent) (hcustody : w.Custody past) {k : Monitor}
    (hk : k ∈ w.engine.monitors) (hstep : w.engine.step w.setup m = some e) (hm : m.condemned? = some k.no)
    (hunfit : w.server.cluster.Unfit sent k.id) :
    e.Vigilant w.server.cluster sent ∧ ∀ j ∈ e.monitors, j ∈ w.engine.monitors ∧ j.no ≠ k.no :=
  h.engine.of_condemned hcustody.watched (Engine.le_of_step hstep).1
    (Engine.relieves_of_step hcustody.watched.nodup hstep) hm
    fun j hj hno => by rwa [hcustody.monitor_eq hj hk hno]

/-- A monitor attaches to its session, or takes it for dead; the session has no stream then. -/
theorem Vigilant.attached (h : w.Vigilant sent) (hcustody : w.Custody past) {k : Monitor}
    (hk : k ∈ w.engine.monitors) (hwatch : k.watch = .attaching)
    (hstep : w.engine.step w.setup (.attached k.no (w.server.attach k.id).1) = some e) :
    e.Vigilant (w.server.attach k.id).2.cluster sent ∧ (w.server.attach k.id).2.streamErrors = [] := by
  have hlink := h.engine.attaching k hk hwatch
  unfold Server.attach at hstep ⊢
  split at hstep
  · exact ⟨(h.condemned hcustody hk hstep rfl (Or.inl hlink)).1, h.faithful⟩
  · refine ⟨?_, h.faithful⟩
    cases hanswer : (w.server.cluster.attach k.id).1 with
    | ok n =>
      rw [hanswer] at hstep
      exact h.engine.of_attached hcustody.watched (Engine.le_of_step hstep).1
        (Engine.relieves_of_step hcustody.watched.nodup hstep)
        (fun j hj hno => by rw [hcustody.monitor_eq hj hk hno]) hanswer
    | error error =>
      rw [hanswer] at hstep
      rcases Cluster.attach_cases w.server.cluster k.id with ⟨_, hsame⟩ | ⟨-, hok, -⟩
      · rw [hsame]
        exact (h.condemned hcustody hk hstep rfl (Or.inl hlink)).1
      · rw [hanswer] at hok
        cases hok

/-- A monitor takes a message from its stream, which nobody else needs. -/
theorem Vigilant.heard (h : w.Vigilant sent) (hcustody : w.Custody past) {k : Monitor}
    (hk : k ∈ w.engine.monitors) {n : StreamNo} (hwatch : k.watch = .listening n)
    {r : Except RpcError SessionStatus} {server : Server} (hread : w.server.read n = (.message r, server))
    (hstep : w.engine.step w.setup (.heard k.no r) = some e) :
    e.Vigilant server.cluster sent ∧ server.streamErrors = [] := by
  have hcarries := h.engine.carries
  obtain ⟨s, message, rest, hs, hwaiting, rfl, rfl⟩ := read_message h.faithful hread
  refine ⟨?_, h.faithful⟩
  have htells := h.engine.listening k hk n hwatch
  cases message with
  | ready => exact (h.still hcustody hstep (.rests .rfl) rfl (by simp)).takeMessage hs hwaiting (Or.inl rfl)
  | unusable code =>
    have hsent : (n, .unusable code) ∈ sent := hcarries.waits n s hs code (by simp [hwaiting])
    have hunfit : w.server.cluster.Unfit sent k.id := by
      rcases htells with ⟨hlink, -⟩ | ⟨hlink, -⟩
      · exact Or.inr ⟨n, code, hlink, hsent⟩
      · exact Or.inl hlink
    obtain ⟨hvigilant, hleft⟩ := h.condemned hcustody hk hstep rfl hunfit
    -- the message was for nobody but the monitor that has heard it
    refine hvigilant.takeMessage hs hwaiting (Or.inr fun j hj hlink => ?_)
    have hid := htells.eq_of_link hcarries.wired hlink
    exact (hleft j hj).2 (hcustody.watched.no_eq (hleft j hj).1 hk hid)

/-- What a task does in its turn leaves the pool vigilant. -/
theorem Vigilant.of_prompts (h : w.Vigilant sent) (hcustody : w.Custody past) {no : TaskNo}
    {server : Server} (hprompts : w.Prompts no m server) (hstep : w.engine.step w.setup m = some e) :
    e.Vigilant server.cluster sent ∧ server.streamErrors = [] := by
  have hstill : ∀ {c : Cluster}, Cluster.Loosens w.server.cluster c → m.decides = false →
      (∀ no s, m ≠ .created no (.ok s)) → e.Vigilant c sent := h.still hcustody hstep
  cases hprompts with
  | alone m hm =>
    cases m with
    | start no => exact ⟨hstill (.rests .rfl) rfl (by simp), h.faithful⟩
    | createExpired no => exact ⟨hstill (.rests .rfl) rfl (by simp), h.faithful⟩
    | woken no => exact ⟨hstill (.rests .rfl) rfl (by simp), h.faithful⟩
    | noticed no => exact ⟨hstill (.rests .rfl) rfl (by simp), h.faithful⟩
    | proceed no => exact ⟨hstill (.rests .rfl) rfl (by simp), h.faithful⟩
    | deletionExpired no => exact ⟨hstill (.rests .rfl) rfl (by simp), h.faithful⟩
    | _ => cases hm
  | created => exact ⟨h.created hcustody hstep, h.faithful⟩
  | answered cancels result => exact ⟨hstill (.rests .rfl) rfl (by simp), h.faithful⟩
  | operated call hcall a k since hpoint hdeed cancels result =>
    exact ⟨hstill (w.server.cluster.loosens_operate k.id) rfl (by simp), h.faithful⟩
  | deleted d hending =>
    unfold Server.endDelete
    split
    · exact ⟨hstill (.rests .rfl) rfl (by simp), h.faithful⟩
    · exact ⟨hstill (w.server.cluster.loosens_delete _) rfl (by simp), h.faithful⟩
  | attached k hk hwatch => exact h.attached hcustody hk hwatch hstep
  | heard k hk n hwatch r server hread => exact h.heard hcustody hk hwatch hread hstep
  | ended k hk n hwatch hread =>
    have hlink := link_eq_none_of_ended h.faithful h.engine.carries (h.engine.listening k hk n hwatch) hread
    exact ⟨(h.condemned hcustody hk hstep rfl (Or.inl hlink)).1, h.faithful⟩

end Turns

/-! ## What happens -/

/-- Whatever happens leaves the pool vigilant, as long as nobody else attaches to sessions. -/
theorem Vigilant.happen (h : w.Vigilant sent) (hcustody : w.Custody past) {x : Happening}
    (hx : ∀ id, x ≠ .attach id) (hhappen : w.happen x = some w') : w'.Vigilant (sent ++ w.sending x) := by
  have hcarries := h.engine.carries
  -- the server hears what is told in the move, and the pool stays vigilant
  have hmoved : ∀ {server : Server} {e : Engine DriverError Int}, e.Vigilant server.cluster sent →
      server.streamErrors = [] → (({ w with server := server } : World).hearAll e).Vigilant sent := by
    intro server e hvigilant hfaithful
    refine ⟨vigilant_hearAll (w := { w with server := server }) hvigilant, ?_⟩
    rw [server_hearAll]
    exact hfaithful
  have hnothing : sent ++ ([] : List (StreamNo × SessionStatus)) = sent := List.append_nil sent
  obtain ⟨m, server, hcauses, hmove⟩ := causes_of_happen hhappen
  cases hcauses with
  | turn no m server hprompts =>
    obtain ⟨e, hstep, rfl⟩ := exists_of_move (w := { w with server := server }) hcustody.detached hmove
    obtain ⟨hvigilant, hfaithful⟩ := h.of_prompts hcustody hprompts hstep
    exact hnothing.symm ▸ hmoved hvigilant hfaithful
  | act m houtside =>
    obtain ⟨e, hstep, rfl⟩ := exists_of_move hcustody.detached hmove
    have hw := hcustody.watched
    refine hnothing.symm ▸ hmoved ?_ h.faithful
    refine h.engine.of_relieves hw (Engine.le_of_step hstep).1 (Engine.relieves_of_step hw.nodup hstep)
      ?_ fun no s heq => ?_
    · cases m <;> first | rfl | cases houtside
    · rw [heq] at houtside
      cases houtside
  | server step hspares =>
    cases hmove
    have hsame : Cluster.Keeps w.server.cluster sent w.server.cluster sent := .rfl hcarries
    have hrests : ∀ {c : Cluster}, c.sessions = w.server.cluster.sessions →
        c.streams = w.server.cluster.streams → Cluster.Keeps w.server.cluster sent c sent :=
      fun hsessions hstreams => (Cluster.Loosens.rests (.of_eq hsessions hstreams)).keeps hcarries
    cases step with
    | kill id =>
      exact hnothing.symm ▸ ⟨h.engine.keeps
        ((Cluster.Loosens.cuts id (w.server.cluster.cuts_kill id)).keeps hcarries), h.faithful⟩
    | send id status => exact ⟨h.engine.keeps (hcarries.keeps_send id status), h.faithful⟩
    | failCreates es => exact hnothing.symm ▸ ⟨h.engine.keeps (hrests rfl rfl), h.faithful⟩
    | failOperations es => exact hnothing.symm ▸ ⟨h.engine.keeps (hrests rfl rfl), h.faithful⟩
    | setFailureRate rate => exact hnothing.symm ▸ ⟨h.engine.keeps (hrests rfl rfl), h.faithful⟩
    | isAttached id => exact hnothing.symm ▸ ⟨h.engine, h.faithful⟩
    | failAttach id error => exact hnothing.symm ▸ ⟨h.engine.keeps hsame, h.faithful⟩
    | failDelete id error => cases hspares
    | slowDelete id millis => cases hspares
    | nothing => exact hnothing.symm ▸ h
  | operate id =>
    cases hmove
    exact hnothing.symm ▸
      ⟨h.engine.keeps ((w.server.cluster.loosens_operate id).keeps hcarries), h.faithful⟩
  | attach id => exact absurd rfl (hx id)

/-- Where things happen next does not matter for the vigilance of the pool. -/
theorem Vigilant.placed (h : w.Vigilant sent) (place : Bool) : (w.placed place).Vigilant sent :=
  ⟨{ h.engine with }, h.faithful⟩

/-- After every run the pool is vigilant, as long as nobody else attaches to sessions. -/
theorem Vigilant.run {xs : List (Bool × Happening)} (h : w.Vigilant sent) (hcustody : w.Custody past)
    (hxs : ∀ place id, (place, .attach id) ∉ xs) (hrun : w.run xs = some w') :
    w'.Vigilant (sent ++ w.sent xs) := by
  induction xs generalizing w past sent with
  | nil =>
    cases hrun
    rw [World.sent, List.append_nil]
    exact h
  | cons x xs ih =>
    obtain ⟨w₁, hfirst, hrest⟩ := Option.bind_eq_some_iff.mp hrun
    rw [World.sent, hfirst, ← List.append_assoc]
    have hx : ∀ id, x.2 ≠ .attach id := by
      intro id heq
      exact hxs x.1 id (heq ▸ List.mem_cons_self)
    exact ih ((h.placed x.1).happen (hcustody.placed x.1) hx hfirst) (hcustody.happenAt hfirst)
      (fun place id hin => hxs place id (List.mem_cons_of_mem x hin)) hrest

end World

end PooledSessions
