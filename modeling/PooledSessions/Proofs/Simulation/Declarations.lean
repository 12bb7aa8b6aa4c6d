import PooledSessions.Simulation.PoolScenario
import PooledSessions.Proofs.Pool.Declarations
import PooledSessions.Proofs.Simulation.Mirrors
import PooledSessions.Proofs.Simulation.Prompts
/-!
# A world in which everything is declared safe

The simulated cluster lets operations fail at random only with statuses that say what became of them.  So
a world whose operations run on the server's sessions, with no failure scripted (`World.Tame`), goes on
alike whether its operations are declared safe to repeat or not (`World.turn_mirrored`,
`World.makeCall_asSafe`): only the events differ, in the declaration that they tell of.
-/

namespace PooledSessions

/-! ## Failures of operations -/

namespace Cluster

variable {c : Cluster}

@[simp] theorem operationFailures_kill (c : Cluster) (id : SessionId) :
    (c.kill id).operationFailures = c.operationFailures :=
  congrArg Tally.operationFailures (tally_kill c id)

theorem operationFailures_attach (c : Cluster) (id : SessionId) :
    (c.attach id).2.operationFailures = c.operationFailures :=
  congrArg Tally.operationFailures (tally_attach c id)

theorem operationFailures_delete (c : Cluster) (id : SessionId) :
    (c.delete id).2.operationFailures = c.operationFailures := by
  unfold delete
  split
  · rfl
  · exact congrArg Tally.operationFailures (tally_endStream c _)

theorem operationFailures_endCreate (c : Cluster) :
    c.endCreate.2.operationFailures = c.operationFailures := by
  unfold endCreate
  dsimp only
  split <;> rfl

theorem operationFailures_heed (asked : List Request) (c : Cluster) :
    (asked.foldl heed c).operationFailures = c.operationFailures := by
  obtain ⟨calls, creating, peak, heq⟩ := foldl_heed asked c
  rw [heq]

/-- A failure of an operation that is not scripted: a status that says what became of the operation. -/
theorem operate_fails (hscript : c.operationFailures = []) (id : SessionId) :
    (c.operate id).2.operationFailures = [] ∧
      ∀ error, (c.operate id).1 = .error error → ∃ n message, error = .status (injected n) message := by
  have hoperates := c.operates id
  generalize c.operate id = answered at hoperates ⊢
  cases hoperates with
  | scripted e rest hcons =>
    rw [hscript] at hcons
    cases hcons
  | refused =>
    refine ⟨hscript, fun error heq => ⟨3, "session " ++ id.text ++ " not found", ?_⟩⟩
    exact (Except.error.inj heq).symm
  | injected n g =>
    refine ⟨?_, fun error heq => ⟨n, "injected failure", (Except.error.inj heq).symm⟩⟩
    unfold bereft
    dsimp only
    split
    · rw [operationFailures_kill, hscript]
    · exact hscript
  | succeeds g => exact ⟨hscript, fun error heq => nomatch heq⟩

end Cluster

theorem injected_determined (n : Nat) :
    (Failure.mk none (some (Cluster.injected n))).failureClass ≠ .undetermined := by
  unfold Cluster.injected
  split <;> decide

namespace World

variable {w w' : World}

/-! ## Worlds -/

/-- A world in which everything is declared safe. -/
def asSafe (w : World) : World :=
  { w with engine := w.engine.asSafe, events := w.events.map Event.asSafe }

/-- A world whose operations cannot leave their outcome unknown, since they run on the server's sessions
and none of their failures is scripted. -/
structure Tame (w : World) : Prop where
  /-- Failures are taken for what they are. -/
  classifier : w.setup.operations.classifier = .standard
  /-- No failure is scripted. -/
  script : w.server.cluster.operationFailures = []
  /-- All operations run on the server's sessions. -/
  deeds : ∀ no i, (w.deeds no i).result = none
  /-- Everybody waits for the end of his call. -/
  detached : w.detached = []
  /-- Attempts at creations are safe to repeat. -/
  creates : w.engine.CreatesSafely

/-- The server may change, as long as it scripts no failure. -/
theorem Tame.withServer (h : w.Tame) {server : Server} (hscript : server.cluster.operationFailures = []) :
    ({ w with server := server } : World).Tame :=
  ⟨h.classifier, hscript, h.deeds, h.detached, h.creates⟩

/-! ### What is heard -/

theorem asSafe_hear (w : World) (s : Signal DriverError Int) :
    (w.hear s).asSafe = w.asSafe.hear s.asSafe := by
  cases s with
  | event e => simp [hear, asSafe, Signal.asSafe]
  | operationStarted no info =>
    have hcall := Engine.call?_asSafe w.engine no
    unfold hear
    dsimp only [Signal.asSafe]
    rw [show w.asSafe.engine = w.engine.asSafe from rfl, hcall]
    cases w.engine.call? no with
    | none => rfl
    | some call =>
      dsimp only [Option.map_some]
      rw [apply_ite asSafe]
      congr 1
      exact congrArg (fun e : Engine DriverError Int =>
        ({ w.asSafe with engine := e, visits := w.visits ++ [(no, info)] } : World))
          (Engine.asSafe_cancel w.engine call.token)
  | _ => rfl

theorem asSafe_foldl (told : List (Signal DriverError Int)) (w : World) :
    (told.foldl hear w).asSafe = (told.map Signal.asSafe).foldl hear w.asSafe := by
  induction told generalizing w with
  | nil => rfl
  | cons s told ih => rw [List.foldl_cons, List.map_cons, List.foldl_cons, ih, asSafe_hear]

theorem asSafe_hearAll (w : World) (e : Engine DriverError Int) :
    (w.hearAll e).asSafe = w.asSafe.hearAll e.asSafe :=
  asSafe_foldl e.signals _

/-! ### Moves -/

/-- The world makes the moves of its pool. -/
theorem move_asSafe (hdetached : w.detached = []) (hcreates : w.engine.CreatesSafely)
    {m : Move DriverError Int} (hdet : m.Determined w.setup) :
    w.asSafe.move m.asSafe = (w.move m).map asSafe := by
  rw [move_eq hdetached, move_eq (w := w.asSafe) hdetached,
    show w.asSafe.engine.step w.asSafe.setup m.asSafe = _ from Engine.step_asSafe hcreates hdet,
    Option.map_map, Option.map_map]
  congr 1
  funext e
  exact (asSafe_hearAll w e).symm

theorem Tame.move (h : w.Tame) {m : Move DriverError Int} (hmove : w.move m = some w') : w'.Tame := by
  obtain ⟨e, hstep, rfl⟩ := exists_of_move h.detached hmove
  have hheard := heard_hearAll w e
  refine ⟨by rw [hheard.setup]; exact h.classifier, ?_, by rw [hheard.deeds]; exact h.deeds,
    hheard.detached.trans h.detached, ?_⟩
  · rw [server_hearAll]
    exact (Cluster.operationFailures_heed _ _).trans h.script
  · intro k hk
    rw [calls_hearAll] at hk
    exact Engine.createsSafely_of_step h.creates hstep k hk

theorem Tame.tryMove (h : w.Tame) (m : Move DriverError Int) : (w.tryMove m).Tame := by
  unfold World.tryMove
  cases hmove : w.move m with
  | none => exact h
  | some w' => exact h.move hmove

theorem tryMove_asSafe (h : w.Tame) {m : Move DriverError Int} (hdet : m.Determined w.setup) :
    w.asSafe.tryMove m.asSafe = (w.tryMove m).asSafe := by
  unfold tryMove
  rw [move_asSafe h.detached h.creates hdet]
  cases w.move m <;> rfl

/-! ### Turns -/

theorem perform_asSafe (w : World) (d : Deed) (s : SessionInfo) :
    w.asSafe.perform d s = ((w.perform d s).1, (w.perform d s).2.asSafe) := by
  unfold perform
  cases d.result <;> rfl

/-- What an operation of a tame world answers leaves its outcome known. -/
theorem Tame.perform (h : w.Tame) {d : Deed} (hd : d.result = none) (s : SessionInfo) :
    (w.perform d s).2.Tame ∧ ∀ no cancels,
      (Move.operated no cancels (w.perform d s).1 : Move DriverError Int).Determined w.setup := by
  obtain ⟨hscript, hfails⟩ := Cluster.operate_fails h.script s.id
  unfold World.perform
  rw [hd]
  refine ⟨h.withServer hscript, fun no cancels => ?_⟩
  dsimp only
  cases hanswer : (w.server.cluster.operate s.id).1 with
  | ok n => trivial
  | error error =>
    obtain ⟨n, message, rfl⟩ := hfails error hanswer
    show (w.setup.operations.classifier.classify _).failureClass ≠ .undetermined
    rw [h.classifier]
    exact injected_determined n

theorem turnDeletion_asSafe (h : w.Tame) (d : Deletion) :
    w.asSafe.turnDeletion d = (w.turnDeletion d).map asSafe := by
  unfold turnDeletion
  rw [show w.asSafe.removal d = w.removal d from rfl, show w.asSafe.now = w.now from rfl]
  dsimp only
  split
  · exact move_asSafe (w := { w with server := (w.server.endDelete (w.removal d)).2 }) h.detached h.creates
      (m := .deleted d.no _) trivial
  · exact move_asSafe h.detached h.creates (m := .deletionExpired d.no) trivial

theorem turnMonitor_asSafe (h : w.Tame) (m : Monitor) :
    w.asSafe.turnMonitor m = (w.turnMonitor m).map asSafe := by
  unfold turnMonitor
  rw [show w.asSafe.server = w.server from rfl]
  cases m.watch with
  | attaching =>
    exact move_asSafe (w := { w with server := (w.server.attach m.id).2 }) h.detached h.creates
      (m := .attached m.no _) trivial
  | listening stream =>
    dsimp only
    rcases w.server.read stream with ⟨reading, server⟩
    cases reading with
    | message r =>
      exact move_asSafe (w := { w with server := server }) h.detached h.creates (m := .heard m.no r) trivial
    | nothing => rfl
    | ended => exact move_asSafe h.detached h.creates (m := .streamEnded m.no) trivial

theorem orElse_asSafe {first first' : Option World} {next next' : Unit → Option World}
    (hfirst : first' = first.map asSafe) (hnext : next' () = (next ()).map asSafe) :
    first'.orElse next' = (first.orElse next).map asSafe := by
  rw [hfirst]
  cases first with
  | none => exact hnext
  | some w => rfl

theorem turnCall_asSafe (h : w.Tame) (call : Call) :
    w.asSafe.turnCall call.asSafe = (w.turnCall call).map asSafe := by
  -- the two worlds make their moves in step; what remains is that they choose the same ones
  have hmove : ∀ m : Move DriverError Int, m.Determined w.setup →
      w.asSafe.move m.asSafe = (w.move m).map asSafe :=
    fun m hm => move_asSafe h.detached h.creates hm
  have hnoticed := hmove (.noticed call.no) trivial
  have hproceed := hmove (.proceed call.no) trivial
  obtain ⟨no, token, started, point⟩ := call
  unfold turnCall
  refine orElse_asSafe hnoticed ?_
  cases point with
  | fresh purpose => exact hmove (.start no) trivial
  | creating client a since =>
    dsimp only [Call.asSafe, Point.asSafe]
    rw [show w.asSafe.server = w.server from rfl, show w.asSafe.now = w.now from rfl]
    split
    · exact move_asSafe
        (w := { w with server := { w.server with cluster := w.server.cluster.endCreate.2 } }) h.detached
        h.creates (m := .created no _) trivial
    · exact hmove (.createExpired no) trivial
  | createPause client a wake => exact hmove (.woken no) trivial
  | operating a k since =>
    dsimp only [Call.asSafe, Point.asSafe]
    rw [show w.asSafe.deeds = w.deeds from rfl, show w.asSafe.now = w.now from rfl, perform_asSafe]
    split
    · obtain ⟨htame, hdet⟩ := h.perform (h.deeds no (started - 1)) k.info
      have hsetup : (w.perform (w.deeds no (started - 1)) k.info).2.setup = w.setup := by
        obtain ⟨server, -, hperformed⟩ := perform_steady w (w.deeds no (started - 1)) k.info
        rw [hperformed]
      refine move_asSafe htame.detached htame.creates (m := .operated no _ _) ?_
      rw [hsetup]
      exact hdet no _
    · rfl
  | pausing a wake => exact hmove (.woken no) trivial
  | deleting =>
    dsimp only [Call.asSafe, Point.asSafe]
    refine orElse_asSafe ?_ hproceed
    rw [List.map_findSome?]
    exact congrArg (fun turned => List.findSome? turned _) (funext (turnDeletion_asSafe h))
  | draining woken => exact hproceed
  | settling => exact hproceed

theorem turn_asSafe (h : w.Tame) (no : TaskNo) : w.asSafe.turn no = (w.turn no).map asSafe := by
  unfold turn
  rw [show w.asSafe.engine = w.engine.asSafe from rfl, Engine.call?_asSafe, Engine.monitor?_asSafe,
    Engine.deletion?_asSafe]
  cases w.engine.call? no with
  | some call => exact turnCall_asSafe h call
  | none =>
    cases w.engine.monitor? no with
    | some m => exact turnMonitor_asSafe h m
    | none =>
      cases w.engine.deletion? no with
      | some d => exact turnDeletion_asSafe h d
      | none => rfl

theorem Tame.turn (h : w.Tame) {no : TaskNo} (hturn : w.turn no = some w') : w'.Tame := by
  obtain ⟨m, server, hprompts, hmove⟩ := prompts_of_turn hturn
  have hserver : server.cluster.operationFailures = [] := by
    cases hprompts with
    | alone => exact h.script
    | answered => exact h.script
    | ended => exact h.script
    | created => exact (Cluster.operationFailures_endCreate _).trans h.script
    | operated => exact (Cluster.operate_fails h.script _).1
    | attached k =>
      unfold Server.attach
      split
      · exact h.script
      · exact (Cluster.operationFailures_attach _ _).trans h.script
    | heard k hk stream hwatch r server hread =>
      have hread' : (w.server.read stream).2.cluster.operationFailures = [] := by
        unfold Server.read
        repeat' split
        all_goals exact h.script
      rw [hread] at hread'
      exact hread'
    | deleted d =>
      unfold Server.endDelete
      split
      · exact h.script
      · exact (Cluster.operationFailures_delete _ _).trans h.script
  exact (h.withServer hserver).move hmove

/-- Everything that takes a turn goes on alike. -/
theorem turn_mirrored (no : TaskNo) : Mirrored Tame asSafe (World.turn · no) where
  image := fun _ h => turn_asSafe h no
  keeps := fun _ _ h hturn => h.turn hturn

/-! ### Calls -/

theorem isRunning_asSafe (w : World) (no : TaskNo) : w.asSafe.isRunning no = w.isRunning no := by
  unfold isRunning
  rw [show w.asSafe.engine = w.engine.asSafe from rfl, Engine.call?_asSafe, Option.isSome_map]

theorem dues_asSafe (w : World) : w.asSafe.dues = w.dues := by
  have hcalls : ∀ call : Call, w.asSafe.callDues call.asSafe = w.callDues call := by
    intro call
    obtain ⟨no, token, started, point⟩ := call
    cases point <;> rfl
  unfold dues
  rw [show w.asSafe.engine.calls = w.engine.calls.map Call.asSafe from rfl, List.flatMap_map]
  simp only [hcalls]
  rfl

theorem backgroundTasks_asSafe (w : World) : w.asSafe.backgroundTasks = w.backgroundTasks := by
  unfold backgroundTasks
  rw [show w.asSafe.engine.calls = w.engine.calls.map Call.asSafe from rfl, List.map_map]
  rfl

theorem tasks_mirrored (foreground : Option TaskNo) : (tasks foreground).Mirrored Tame asSafe where
  now := fun _ => rfl
  background := fun w => congrArg (List.filter _) (backgroundTasks_asSafe w)
  dues := dues_asSafe
  setClock := fun due w h => tryMove_asSafe h (m := .advance (due - w.now)) trivial
  clocked := fun due w h => h.tryMove (.advance (due - w.now))
  moves := turn_mirrored

theorem callGoal_mirrored (no : TaskNo) (limit : Nat) : (callGoal no limit).Mirrored Tame asSafe where
  moves := turn_mirrored no
  reached := fun w => by
    show (!w.asSafe.isRunning no || decide (limit ≤ w.now)) = _
    rw [isRunning_asSafe]
    rfl
  dues := fun _ => rfl

theorem setUp_asSafe (h : w.Tame) (purpose : Purpose) (token : Token) {deeds : Nat → Deed}
    (hdeeds : ∀ i, (deeds i).result = none) :
    (w.setUp purpose token deeds).2.Tame ∧ w.asSafe.setUp purpose.asSafe token deeds =
      ((w.setUp purpose token deeds).1, (w.setUp purpose token deeds).2.asSafe) := by
  have htold : ({ w with deeds := fun k => if k = w.engine.nextNo then deeds else w.deeds k } : World).Tame :=
    { h with
      deeds := fun no i => by
        dsimp only
        split
        · exact hdeeds i
        · exact h.deeds no i }
  have hset := tryMove_asSafe htold (m := .call purpose token) trivial
  exact ⟨htold.tryMove (.call purpose token), congrArg (w.engine.nextNo, ·) hset⟩

/-- A call is made in the foreground as in the world itself. -/
theorem makeCall_asSafe (h : w.Tame) (purpose : Purpose) (token : Token) {deeds : Nat → Deed}
    (hdeeds : ∀ i, (deeds i).result = none) (within : Nat) :
    w.asSafe.makeCall purpose.asSafe token deeds within =
      ((w.makeCall purpose token deeds within).1, (w.makeCall purpose token deeds within).2.asSafe) := by
  obtain ⟨htame, hset⟩ := setUp_asSafe h purpose token hdeeds
  unfold makeCall
  rw [hset]
  generalize w.setUp purpose token deeds = made at *
  obtain ⟨no, w₁⟩ := made
  dsimp only at htame ⊢
  have hdrive := (tasks_mirrored (some no)).drive (callGoal_mirrored no (w₁.now + within))
  rw [show w₁.asSafe.now = w₁.now from rfl, hdrive.image w₁ htame]
  have hlast : ∀ last : World, last.Tame →
      (if last.asSafe.isRunning no then last.asSafe.tryMove (.abandon no) else last.asSafe) =
        (if last.isRunning no then last.tryMove (.abandon no) else last).asSafe := by
    intro last hlast
    rw [isRunning_asSafe]
    split
    · exact tryMove_asSafe hlast (m := .abandon no) trivial
    · rfl
  cases hdriven : (tasks (some no)).drive (callGoal no (w₁.now + within)) w₁ with
  | none => exact congrArg (no, ·) (hlast w₁ htame)
  | some last => exact congrArg (no, ·) (hlast last (hdrive.keeps w₁ last htame hdriven))

end World

end PooledSessions
