import ContactsIndex.Proofs.Instance.Jobs

/-!
# Instances that run

A running instance moves the threads of its handler and of its cycles on for as long as their
calls are answered. Seen through a `View` of its world it is a session: whatever it does in one
go is a path of that session (`Follows.move`), and so is what it does until nothing moves any
more. While its handler is held at a gate, the session is what it will be when the handler is
through. What holds of sessions so holds of instances that run; `Driven.pending` says it of the
job that is pending.
-/

namespace ContactsIndex

open Program

namespace Bench

variable {σ α : Type} {env : Environment σ}

/-- What is looked at in a world. Where the world is fair, calls are answered as in `env`. -/
structure View (env : Environment σ) where
  look : World → σ
  fair : World → Prop
  clock : ∀ scene : Scene, env.clock scene.time
  token : ∀ b, env.token b
  unordered : env.unordered
  issue : ∀ (scene : Scene) method c, fair scene.world →
    fair (scene.issue method c).2.world ∧ look (scene.issue method c).2.world = look scene.world
  perform : ∀ (scene : Scene) method nth c, fair scene.world → fair (scene.perform method nth c).2.world ∧
    env.answers c (look scene.world) (scene.perform method nth c).1 (look (scene.perform method nth c).2.world)
  respond : ∀ (scene : Scene) c, fair scene.world → fair (scene.respond .none c).2.world ∧
    env.answers c (look scene.world) (scene.respond .none c).1 (look (scene.respond .none c).2.world)

/-! ## What answering a call may change -/

namespace Scene

variable {α : Type} (scene : Scene) (d : Disturbance)

theorem exists_withBook (given : Option α) (query : AddressBook → Option α × AddressBook) :
    ∃ book, (scene.withBook d given query).2 = scene.withCollaborators { scene.collaborators with book := book } := by
  unfold withBook
  split
  · exact ⟨scene.world.book, rfl⟩
  · exact ⟨scene.world.book, rfl⟩
  · exact ⟨scene.world.book, rfl⟩
  · exact ⟨_, rfl⟩

theorem exists_withStore (call : DocumentStore → Except StorageError α × DocumentStore) :
    ∃ store, (scene.withStore d call).2 = scene.withCollaborators { scene.collaborators with store := store } := by
  unfold withStore
  split
  · exact ⟨scene.world.store, rfl⟩
  · exact ⟨_, rfl⟩

theorem exists_withScheduler (call : JobScheduler → α × JobScheduler) : ∃ jobs,
    (scene.withScheduler d call).2 = scene.withCollaborators { scene.collaborators with scheduler := jobs } := by
  unfold withScheduler
  split
  · exact ⟨scene.world.scheduler, rfl⟩
  · exact ⟨_, rfl⟩

theorem exists_respond (c : Call) : ∃ w, (scene.respond d c).2 = scene.withCollaborators w := by
  cases c <;>
    first
    | exact (scene.exists_withBook d ..).imp' _ fun _ => id
    | exact (scene.exists_withStore d _).imp' _ fun _ => id
    | exact (scene.exists_withScheduler d _).imp' _ fun _ => id
    | exact ⟨{ scene.collaborators with place := _ }, rfl⟩

theorem applyHooks_frame (hooks : List Hook) : (hooks.foldl applyHook scene).answers = scene.answers ∧
    (hooks.foldl applyHook scene).world.hooks = scene.world.hooks ∧
    (hooks.foldl applyHook scene).world.scheduler = scene.world.scheduler := by
  induction hooks generalizing scene with
  | nil => exact ⟨rfl, rfl, rfl⟩
  | cons hook hooks ih => exact ih (scene.applyHook hook)

theorem answers_respond (c : Call) : (scene.respond d c).2.answers = scene.answers := by
  obtain ⟨w, h⟩ := scene.exists_respond d c
  rw [h]
  rfl

theorem answers_perform (method : Method) (nth : Nat) (c : Call) :
    (scene.perform method nth c).2.answers = scene.answers :=
  (answers_respond ..).trans (applyHooks_frame ..).1

end Scene

/-! ## Threads -/

namespace Thread

def Reached.program : Reached α → Program α
  | .ended value => .done value
  | .held thread => thread.program

variable (v : View env) {scene : Scene}

/-- What an attempt at a call does: the call is answered, or nothing is seen of it. -/
structure Attempted (c : Call) (scene : Scene) (result : Option c.Reply × List Issued × Scene) : Prop where
  fair : v.fair result.2.2.world
  answers : result.2.2.answers = scene.answers
  reply : match result.1 with
    | none => v.look result.2.2.world = v.look scene.world
    | some reply => env.answers c (v.look scene.world) reply (v.look result.2.2.world)

theorem attempted (c : Call) (issued : List Issued) (hfair : v.fair scene.world) :
    Attempted v c scene (attempt c issued scene) := by
  have hattend : ∀ method, v.fair (attend method c issued scene).2.2.world ∧
      (attend method c issued scene).2.2.answers = scene.answers ∧
      v.look (attend method c issued scene).2.2.world = v.look scene.world := by
    intro method
    unfold attend
    split
    · exact ⟨hfair, rfl, rfl⟩
    · obtain ⟨hfair', hlook⟩ := v.issue scene method c hfair
      exact ⟨hfair', rfl, hlook⟩
  unfold attempt
  split
  · obtain ⟨hfair', hreply⟩ := v.respond scene c hfair
    exact ⟨hfair', scene.answers_respond .none c, hreply⟩
  · next method _ =>
    obtain ⟨hfair', hanswers, hlook⟩ := hattend method
    dsimp only
    split
    · obtain ⟨hdone, hreply⟩ := v.perform _ method (attend method c issued scene).1.nth c hfair'
      rw [hlook] at hreply
      exact ⟨hdone, (Scene.answers_perform ..).trans hanswers, hreply⟩
    · exact ⟨hfair', hanswers, hlook⟩

/-- What a thread does when it is moved on: some steps of its program. -/
structure Advanced (p : Program α) (scene : Scene) (result : Reached α × Scene) : Prop where
  fair : v.fair result.2.world
  leads : ∃ told, result.2.answers = scene.answers ++ told ∧
    Leads env p (v.look scene.world) told result.1.program (v.look result.2.world)

variable {v}

theorem Advanced.step {p q : Program α} (scene' : Scene) {result : Reached α × Scene}
    (hs : Step env p (v.look scene.world) q (v.look scene'.world))
    (hanswers : scene'.answers = scene.answers ++ p.answering)
    (h : Advanced v q scene' result) : Advanced v p scene result where
  fair := h.fair
  leads := by
    obtain ⟨told, htold, hleads⟩ := h.leads
    exact ⟨p.answering ++ told, by rw [htold, hanswers, List.append_assoc], .step hs hleads⟩

theorem advanced (v : View env) (p : Program α) (issued : List Issued) (hfair : v.fair scene.world) :
    Advanced v p scene (advanceProgram p issued scene) := by
  have hsilent {scene scene' : Scene} (h : scene'.answers = scene.answers) :
      scene'.answers = scene.answers ++ [] := h.trans (List.append_nil _).symm
  induction p generalizing issued scene with
  | done a => exact ⟨hfair, [], hsilent rfl, .refl⟩
  | now next ih => exact .step scene (.now (v.clock scene)) (hsilent rfl) (ih _ issued hfair)
  | cancelled next ih => exact .step scene (.cancelled (v.token _)) (hsilent rfl) (ih _ issued hfair)
  | note event next ih => exact .step (scene.note event) .note (hsilent rfl) (ih issued hfair)
  | answer job result next ih => exact .step (scene.answer job result) .answer rfl (ih issued hfair)
  | call c next ih =>
    have ha := attempted v c issued hfair
    rw [advanceProgram]
    generalize attempt c issued scene = result at ha ⊢
    obtain ⟨_ | reply, issued', scene'⟩ := result
    · exact ⟨ha.fair, [], hsilent ha.answers, ha.reply ▸ .refl⟩
    · exact .step scene' (.call ha.reply) (hsilent ha.answers) (ih reply issued' ha.fair)
  | both c d next later ih ih' =>
    have ha := attempted v c issued hfair
    rw [advanceProgram]
    generalize attempt c issued scene = result at ha ⊢
    obtain ⟨_ | reply, issued', scene'⟩ := result
    · have hd := attempted v d issued' ha.fair
      dsimp only
      generalize attempt d issued' scene' = result at hd ⊢
      obtain ⟨_ | reply, issued'', scene''⟩ := result
      · exact ⟨hd.fair, [], hsilent (hd.answers.trans ha.answers), (hd.reply.trans ha.reply) ▸ .refl⟩
      · have hreply := hd.reply
        rw [show v.look scene'.world = _ from ha.reply] at hreply
        exact .step scene'' (.second v.unordered hreply) (hsilent (hd.answers.trans ha.answers))
          (ih' reply issued'' hd.fair)
    · exact .step scene' (.first ha.reply) (hsilent ha.answers) (ih reply issued' ha.fair)

end Thread

end Bench

/-! ## Sessions that have come about -/

namespace Session

open Bench (Message)

variable {σ : Type} {env : Environment σ} {user : UserId} {world : σ} {s s' : Session σ} {act : Act}
  {turns : List (Turn σ)}

def Runs (env : Environment σ) (user : UserId) (world : σ) (s : Session σ) : Prop :=
  ∃ s₀ turns, Begins env user world s₀ ∧ Path env s₀ turns s

/-- A session that has ended leaves its messages behind. -/
def trim (s : Session σ) : Session σ :=
  if s.worker.lifecycle = .shutDown then s.close else s

theorem trim_of_closed (h : s.worker.lifecycle = .shutDown) : s.trim = s.close :=
  if_pos h

theorem trim_of_open (h : s.worker.lifecycle ≠ .shutDown) : s.trim = s :=
  if_neg h

theorem Sound.trim_eq (hs : s.Sound) : s.trim = s := by
  unfold trim
  split
  · next hc =>
    obtain ⟨w, delta, full, inbox, told, world⟩ := s
    obtain rfl : inbox = [] := (hs.closed hc).2.2.2
    simp [close, refusals]
  · rfl

theorem Runs.sound (h : Runs env user world s) : s.Sound := by
  obtain ⟨s₀, turns, hb, hpath⟩ := h
  exact hpath.sound (Sound.begins hb).1

theorem Runs.path (h : Runs env user world s) (hp : Path env s turns s') : Runs env user world s' := by
  obtain ⟨s₀, earlier, hb, hpath⟩ := h
  exact ⟨s₀, turns ++ earlier, hb, hpath.append hp⟩

theorem Runs.step (h : Runs env user world s) (hs : Step env s act s') : Runs env user world s' :=
  h.path (Path.nil.step hs)

theorem Runs.trim (h : Runs env user world s) : Runs env user world s.trim :=
  h.sound.trim_eq.symm ▸ h

theorem Runs.lives (h : Runs env user world s) : s.Lives env user := by
  obtain ⟨s₀, turns, hb, hpath⟩ := h
  exact (Lives.begin hb).path hpath

theorem Runs.of_trim (h : Runs env user world s.trim)
    (hleft : s.worker.draining = false ∨ s.delta ≠ none ∨ s.full ≠ none) : Runs env user world s := by
  by_cases hc : s.worker.lifecycle = .shutDown
  · rw [trim_of_closed hc] at h
    obtain ⟨hdraining, hd, hf, -⟩ := h.sound.closed hc
    rcases hleft with hrunning | hdelta | hfull
    · cases hrunning.symm.trans hdraining
    · exact absurd hd hdelta
    · exact absurd hf hfull
  · rwa [trim_of_open hc] at h

theorem install_nothing {w : Worker} (hd : s.delta = none → w.delta = none) (hf : s.full = none → w.full = none) :
    s.install [] w s.world = { s with worker := w } := by
  obtain ⟨_, delta, full, inbox, told, world⟩ := s
  unfold install
  cases delta <;> cases full <;> simp_all

theorem receive_trim (s : Session σ) (message : Message) :
    s.trim.receive message = trim { s with inbox := queue s.inbox message } := by
  unfold trim receive
  split
  · next hc => simp [close, hc, refusals, List.append_assoc]
  · rfl

end Session

/-! ## Instances as sessions -/

namespace Bench.Instance

/-- An instance of the user from its beginning, among others who do nothing that is seen. -/
inductive Driven {σ : Type} {env : Environment σ} (v : View env) (user : UserId) (world : σ) :
    List (JobId × JobResult) → Instance → Scene → Prop
  | launch {settings config initial scene} : v.fair scene.world → scene.answers = [] → v.look scene.world = world →
      Driven v user world [] (launch (.new user settings config) initial) scene
  | send {told inst scene message} : Driven v user world told inst scene → message.isConfig = false →
      Driven v user world told (inst.send message) scene
  | reconfigure {told inst scene config} : Driven v user world told inst scene →
      Driven v user world told (inst.reconfigure config) scene
  | settle {told inst scene} (fired : List JobId) : Driven v user world told inst scene →
      Driven v user world told (inst.settle fired scene).1 (inst.settle fired scene).2
  | elsewhere {told told' inst scene scene'} : Driven v user world told inst scene → v.fair scene'.world →
      v.look scene'.world = v.look scene.world → told' ++ scene'.answers = told ++ scene.answers →
      Driven v user world told' inst scene'

variable {σ : Type} {env : Environment σ} (v : View env) (user : UserId) (world : σ)
  (told : List (JobId × JobResult))

def session (inst : Instance) (scene : Scene) : Session σ where
  worker := inst.worker
  delta := inst.delta.map (·.program)
  full := inst.full.map (·.program)
  inbox := inst.inbox
  told := told ++ scene.answers
  world := v.look scene.world

/-- The session has come about, or will have when the handler is through. -/
def Follows (inst : Instance) (scene : Scene) : Prop :=
  match inst.handler with
  | none => Session.Runs env user world (inst.session v told scene).trim
  | some thread => ∀ more w later, Finishes env thread.program (v.look scene.world) more w later →
      Session.Runs env user world ((inst.session v told scene).install more w later).trim

variable {v user world told} {inst : Instance} {scene scene' : Scene}

theorem follows_of_idle (h : inst.handler = none) :
    inst.Follows v user world told scene ↔ Session.Runs env user world (inst.session v told scene).trim := by
  unfold Follows
  rw [h]

theorem follows_of_busy {thread : Thread Worker} (h : inst.handler = some thread) :
    inst.Follows v user world told scene ↔
      ∀ more w later, Finishes env thread.program (v.look scene.world) more w later →
        Session.Runs env user world ((inst.session v told scene).install more w later).trim := by
  unfold Follows
  rw [h]

theorem session_install {more : List (JobId × JobResult)} (w : Worker)
    (h : scene'.answers = scene.answers ++ more) :
    (inst.session v told scene).install more w (v.look scene'.world) = (inst.install w).session v told scene' := by
  unfold session Session.install install
  rw [h, ← List.append_assoc]
  cases inst.delta <;> cases inst.full <;> cases w.delta <;> cases w.full <;> rfl

theorem world_refuse (inbox : List Message) (scene : Scene) : (refuse inbox scene).world = scene.world := by
  induction inbox generalizing scene with
  | nil => rfl
  | cons message inbox ih =>
    refine (ih _).trans ?_
    rcases message with (_ | _ | job) | c | _ <;> rfl

/-! ### Moves -/

theorem Follows.moveHandler {thread : Thread Worker} (hfair : v.fair scene.world)
    (hthread : inst.handler = some thread) (h : inst.Follows v user world told scene) :
    v.fair (inst.moveHandler thread scene).scene.world ∧
      (inst.moveHandler thread scene).inst.Follows v user world told (inst.moveHandler thread scene).scene := by
  have ha : Thread.Advanced v thread.program scene (thread.advance scene) :=
    Thread.advanced v thread.program thread.issued hfair
  rw [follows_of_busy hthread] at h
  unfold Instance.moveHandler
  generalize thread.advance scene = result at ha ⊢
  obtain ⟨more, hanswers, hleads⟩ := ha.leads
  obtain ⟨w | held, scene'⟩ := result
  · refine ⟨ha.fair, ?_⟩
    have hruns := h more w _ hleads
    rw [session_install w hanswers] at hruns
    exact hruns
  · refine ⟨ha.fair, fun more' w later hf => ?_⟩
    have hruns := h (more ++ more') w later (hleads.trans hf)
    have hsame : Session.install (session v told { inst with handler := some held } scene') more' w later =
        (inst.session v told scene).install (more ++ more') w later := by
      simp only [Session.install, session]
      rw [hanswers]
      simp [List.append_assoc]
    rw [hsame]
    exact hruns

theorem Follows.moveDelta (hfair : v.fair scene.world) (hidle : inst.handler = none)
    (h : inst.Follows v user world told scene) : v.fair (inst.moveDelta scene).scene.world ∧
      (inst.moveDelta scene).inst.Follows v user world told (inst.moveDelta scene).scene := by
  unfold Instance.moveDelta
  cases hd : inst.delta with
  | none => exact ⟨hfair, h⟩
  | some thread =>
    have hdelta : (inst.session v told scene).delta = some thread.program := congrArg (Option.map _) hd
    have hruns := ((follows_of_idle hidle).mp h).of_trim (.inr (.inl (by simp [hdelta])))
    have ha : Thread.Advanced v thread.program _ (thread.advance { scene with cancelled := inst.worker.draining }) :=
      Thread.advanced v thread.program thread.issued hfair
    dsimp only
    generalize thread.advance { scene with cancelled := inst.worker.draining } = result at ha ⊢
    obtain ⟨more, hanswers, hleads⟩ := ha.leads
    obtain ⟨turns, hpath, -⟩ := Session.Path.delta hdelta hleads
    rw [show (inst.session v told scene).told ++ more = told ++ result.2.answers by
      rw [hanswers]; exact List.append_assoc ..] at hpath
    have hgone := hruns.path hpath
    obtain ⟨outcome | held, scene'⟩ := result
    · refine ⟨ha.fair, fun more' w later hf => ?_⟩
      obtain ⟨context, hcontext⟩ := hgone.sound.exists_context rfl
      exact (hgone.step (.deltaDone rfl hcontext ⟨more', w, later, hf, rfl⟩)).trim
    · have hheld : Instance.handler { inst with delta := some held } = none := hidle
      exact ⟨ha.fair, (follows_of_idle hheld).mpr hgone.trim⟩

theorem Follows.moveFull (hfair : v.fair scene.world) (hidle : inst.handler = none) (fired : List JobId)
    (h : inst.Follows v user world told scene) : v.fair (inst.moveFull fired scene).scene.world ∧
      (inst.moveFull fired scene).inst.Follows v user world told (inst.moveFull fired scene).scene := by
  unfold Instance.moveFull
  cases hf : inst.full with
  | none => exact ⟨hfair, h⟩
  | some thread =>
    have hfull : (inst.session v told scene).full = some thread.program := congrArg (Option.map _) hf
    have hruns := ((follows_of_idle hidle).mp h).of_trim (.inr (.inr (by simp [hfull])))
    have ha : Thread.Advanced v thread.program _
        (thread.advance { scene with cancelled := fullCancelled inst.worker fired }) :=
      Thread.advanced v thread.program thread.issued hfair
    dsimp only
    generalize thread.advance { scene with cancelled := fullCancelled inst.worker fired } = result at ha ⊢
    obtain ⟨more, hanswers, hleads⟩ := ha.leads
    obtain ⟨turns, hpath, -⟩ := Session.Path.full hfull hleads
    rw [show (inst.session v told scene).told ++ more = told ++ result.2.answers by
      rw [hanswers]; exact List.append_assoc ..] at hpath
    have hgone := hruns.path hpath
    obtain ⟨outcome | held, scene'⟩ := result
    · refine ⟨ha.fair, fun more' w later hf => ?_⟩
      obtain ⟨run, hrun⟩ := hgone.sound.exists_run rfl
      exact (hgone.step (.fullDone rfl hrun ⟨more', w, later, hf, rfl⟩)).trim
    · have hheld : Instance.handler { inst with full := some held } = none := hidle
      exact ⟨ha.fair, (follows_of_idle hheld).mpr hgone.trim⟩

theorem Follows.moveMessage (hidle : inst.handler = none) (hrunning : inst.worker.draining = false)
    (h : inst.Follows v user world told scene) : (inst.moveMessage scene).scene = scene ∧
      (inst.moveMessage scene).inst.Follows v user world told scene := by
  have hruns := ((follows_of_idle hidle).mp h).of_trim (.inl hrunning)
  unfold Instance.moveMessage
  cases hin : inst.inbox with
  | nil => exact ⟨rfl, h⟩
  | cons message inbox =>
    have htaken {s' : Session σ} (hh : Session.Handles env { inst.session v told scene with inbox := inbox }
        (inst.worker.handle message.event) s') : Session.Runs env user world s'.trim :=
      (hruns.step (.takeFirst hrunning hin hh)).trim
    rcases message with c | c | _
    · exact ⟨rfl, fun more w later hf => htaken ⟨more, w, later, hf, rfl⟩⟩
    · exact ⟨rfl, fun more w later hf => htaken ⟨more, w, later, hf, rfl⟩⟩
    · have hdraining := htaken ⟨[], inst.worker.beginDrain, _, .refl, rfl⟩
      have hnothing := Session.install_nothing (s := { inst.session v told scene with inbox := inbox })
        (w := inst.worker.beginDrain) hruns.sound.delta_none hruns.sound.full_none
      rw [hnothing] at hdraining
      have hnext : Instance.handler { inst with worker := inst.worker.beginDrain, inbox := inbox } = none := hidle
      exact ⟨rfl, (follows_of_idle hnext).mpr hdraining⟩

theorem Follows.moveDraining (hfair : v.fair scene.world) (hidle : inst.handler = none) (fired : List JobId)
    (hdraining : inst.worker.draining = true) (h : inst.Follows v user world told scene) :
    v.fair (inst.moveDraining fired scene).scene.world ∧
      (inst.moveDraining fired scene).inst.Follows v user world told (inst.moveDraining fired scene).scene := by
  unfold Instance.moveDraining
  split
  · exact h.moveDelta hfair hidle
  · next hd =>
    split
    · exact h.moveFull hfair hidle fired
    · next hf =>
      split
      · next hc =>
        have hleft : Instance.handler { inst with inbox := [] } = none := hidle
        refine ⟨(world_refuse inst.inbox scene).symm ▸ hfair, (follows_of_idle hleft).mpr ?_⟩
        have hclosed : inst.worker.lifecycle = .shutDown := of_decide_eq_true hc
        have hruns := (follows_of_idle hidle).mp h
        rw [Session.trim_of_closed (s := inst.session v told scene) hclosed] at hruns
        -- the session left its messages behind when it ended, the instance refuses them only now
        have hsame : session v told { inst with inbox := [] } (refuse inst.inbox scene) =
            (inst.session v told scene).close := by
          simp only [session, Session.close]
          rw [answers_refuse, world_refuse, List.append_assoc]
        exact hsame ▸ hruns.trim
      · next hopen =>
        have hnotyet : inst.worker.lifecycle ≠ .shutDown := fun hc => hopen (decide_eq_true hc)
        have hruns := (follows_of_idle hidle).mp h
        rw [Session.trim_of_open (s := inst.session v told scene) hnotyet] at hruns
        refine ⟨hfair, fun more w later hfin => ?_⟩
        have hstep := Session.Step.finish (s := inst.session v told scene) hdraining (by simpa [session] using hd)
          (by simpa [session] using hf) hnotyet ⟨more, w, later, hfin, rfl⟩
        have hended : w.lifecycle = .shutDown :=
          (congrArg Worker.lifecycle hstep.worker).trans (inst.worker.lifecycle_after .finish)
        have hdone := hruns.step hstep
        rw [← Session.trim_of_closed (s := (inst.session v told scene).install more w later) hended] at hdone
        exact hdone

theorem moveDelta_frame (inst : Instance) (scene : Scene) : (inst.moveDelta scene).inst.worker = inst.worker ∧
    ((inst.moveDelta scene).moved = false → (inst.moveDelta scene).inst.handler = inst.handler) := by
  unfold Instance.moveDelta
  split
  · exact ⟨rfl, fun _ => rfl⟩
  · split
    · exact ⟨rfl, fun _ => rfl⟩
    · exact ⟨rfl, nofun⟩

theorem moveFull_frame (inst : Instance) (fired : List JobId) (scene : Scene) :
    (inst.moveFull fired scene).inst.worker = inst.worker ∧
      ((inst.moveFull fired scene).moved = false → (inst.moveFull fired scene).inst.handler = inst.handler) := by
  unfold Instance.moveFull
  split
  · exact ⟨rfl, fun _ => rfl⟩
  · split
    · exact ⟨rfl, fun _ => rfl⟩
    · exact ⟨rfl, nofun⟩

theorem Follows.move (hfair : v.fair scene.world) (fired : List JobId) (h : inst.Follows v user world told scene) :
    v.fair (inst.move fired scene).scene.world ∧
      (inst.move fired scene).inst.Follows v user world told (inst.move fired scene).scene := by
  unfold Instance.move
  split
  · next thread hthread => exact h.moveHandler hfair hthread
  · next hidle =>
    split
    · next hdraining => exact h.moveDraining hfair hidle fired hdraining
    · next hrunning =>
      rw [Bool.not_eq_true] at hrunning
      obtain ⟨hfair₁, h₁⟩ := h.moveDelta hfair hidle
      obtain ⟨hworker₁, hidle₁⟩ := inst.moveDelta_frame scene
      dsimp only
      split
      · exact ⟨hfair₁, h₁⟩
      · next hheld₁ =>
        -- a cycle that is held has no handler yet, so what comes after it may move too
        replace hidle₁ := (hidle₁ (Bool.of_not_eq_true hheld₁)).trans hidle
        obtain ⟨hfair₂, h₂⟩ := h₁.moveFull hfair₁ hidle₁ fired
        obtain ⟨hworker₂, hidle₂⟩ := moveFull_frame (inst.moveDelta scene).inst fired (inst.moveDelta scene).scene
        split
        · exact ⟨hfair₂, h₂⟩
        · next hheld₂ =>
          replace hidle₂ := (hidle₂ (Bool.of_not_eq_true hheld₂)).trans hidle₁
          obtain ⟨hscene, h₃⟩ := h₂.moveMessage hidle₂ (by rw [hworker₂, hworker₁, hrunning])
          rw [hscene]
          exact ⟨hfair₂, h₃⟩

theorem Follows.settleIn (fired : List JobId) (steps : Nat) (hfair : v.fair scene.world)
    (h : inst.Follows v user world told scene) : v.fair (inst.settleIn steps fired scene).2.world ∧
      (inst.settleIn steps fired scene).1.Follows v user world told (inst.settleIn steps fired scene).2 := by
  induction steps generalizing inst scene with
  | zero => exact ⟨hfair, h⟩
  | succ steps ih =>
    obtain ⟨hfair', h'⟩ := h.move hfair fired
    unfold Instance.settleIn
    dsimp only
    split
    · exact ih hfair' h'
    · exact ⟨hfair', h'⟩

theorem Follows.settle (fired : List JobId) (hfair : v.fair scene.world) (h : inst.Follows v user world told scene) :
    v.fair (inst.settle fired scene).2.world ∧
      (inst.settle fired scene).1.Follows v user world told (inst.settle fired scene).2 :=
  h.settleIn fired _ hfair

/-! ### Messages -/

theorem send_eq {message : Message} (h : message.isConfig = false) :
    inst.send message = { inst with inbox := queue inst.inbox message } := by
  unfold send queue
  rw [h]
  rfl

theorem Follows.receive (message : Message) (h : inst.Follows v user world told scene) :
    Follows v user world told { inst with inbox := queue inst.inbox message } scene := by
  have hsent {s : Session σ} (hruns : Session.Runs env user world s.trim) :
      Session.Runs env user world (Session.trim { s with inbox := queue s.inbox message }) :=
    Session.receive_trim s message ▸ hruns.step .send
  have hsame : Instance.handler { inst with inbox := queue inst.inbox message } = inst.handler := rfl
  obtain hthread | ⟨thread, hthread⟩ := Option.eq_none_or_eq_some inst.handler
  · exact (follows_of_idle (hsame.trans hthread)).mpr (hsent ((follows_of_idle hthread).mp h))
  · exact (follows_of_busy (hsame.trans hthread)).mpr fun more w later hf =>
      hsent ((follows_of_busy hthread).mp h more w later hf)

/-! ### From the beginning -/

theorem follows_launch (settings : Settings) (config : Config) (initial : InitialCycle) (h : scene.answers = []) :
    (launch (.new user settings config) initial).Follows v user (v.look scene.world) [] scene := by
  intro more w later hf
  have hbegins := Session.Begins.intro ⟨more, w, later, hf, rfl⟩
  have hruns : Session.Runs env user (v.look scene.world) _ := ⟨_, [], hbegins, .nil⟩
  have hsame : session v [] (launch (.new user settings config) initial) scene =
      ⟨.new user settings config, none, none, [], [], v.look scene.world⟩ := by
    simp [session, launch, h]
  rw [hsame]
  exact hruns.trim

theorem Follows.elsewhere {told' : List (JobId × JobResult)} (hlook : v.look scene'.world = v.look scene.world)
    (htold : told' ++ scene'.answers = told ++ scene.answers) (h : inst.Follows v user world told scene) :
    inst.Follows v user world told' scene' := by
  have hsame : inst.session v told' scene' = inst.session v told scene := by
    simp only [session, hlook, htold]
  unfold Follows at h ⊢
  rw [hlook, hsame]
  exact h

theorem Driven.follows (h : Driven v user world told inst scene) :
    v.fair scene.world ∧ inst.Follows v user world told scene := by
  induction h with
  | launch hfair hanswers hlook => exact ⟨hfair, hlook ▸ follows_launch _ _ _ hanswers⟩
  | send _ hm ih => exact ⟨ih.1, send_eq hm ▸ ih.2.receive _⟩
  | @reconfigure _ _ _ config _ ih => exact ⟨ih.1, ih.2.receive (.config config)⟩
  | settle fired _ ih => exact ih.2.settle fired ih.1
  | elsewhere _ hfair hlook htold ih => exact ⟨hfair, ih.2.elsewhere hlook htold⟩

/-- Whenever no handler is held, the instance is a session that has come about. -/
theorem Driven.runs (h : Driven v user world told inst scene) (hidle : inst.handler = none) :
    Session.Runs env user world (inst.session v told scene).trim :=
  (follows_of_idle hidle).mp h.follows.2

end Bench.Instance

/-! ## Over the scheduler in memory -/

namespace Bench

namespace Scene

variable {scene : Scene} {d : Disturbance}

theorem respond_scheduler (hd : schedulerFailure d.failure = none) (c : Call) :
    JobScheduler.environment.answers c scene.world.scheduler (scene.respond d c).1
      (scene.respond d c).2.world.scheduler := by
  have hbook {α : Type} (given : Option α) (query) :
      (scene.withBook d given query).2.world.scheduler = scene.world.scheduler := by
    obtain ⟨book, h⟩ := scene.exists_withBook d given query
    rw [h]
    rfl
  have hstore {α : Type} (call : DocumentStore → Except StorageError α × DocumentStore) :
      (scene.withStore d call).2.world.scheduler = scene.world.scheduler := by
    obtain ⟨store, h⟩ := scene.exists_withStore d call
    rw [h]
    rfl
  have hjobs {α : Type} (call : JobScheduler → α × JobScheduler) :
      (scene.withScheduler d call).1 = .ok (call scene.world.scheduler).1 ∧
        (scene.withScheduler d call).2.world.scheduler = (call scene.world.scheduler).2 := by
    unfold withScheduler
    rw [hd]
    exact ⟨rfl, rfl⟩
  cases c <;> first | exact hbook .. | exact hstore _ | exact hjobs _ | rfl

theorem schedulerFailure_orElse {first second : Option Failure} (h : schedulerFailure first = none)
    (h' : schedulerFailure second = none) : schedulerFailure (second <|> first) = none := by
  cases second with
  | none => exact h
  | some failure => exact h'

theorem schedulerFailure_disturbances (disturbances : List Disturbance)
    (hall : ∀ other ∈ disturbances, schedulerFailure other.failure = none)
    (hd : schedulerFailure d.failure = none) :
    schedulerFailure (disturbances.foldl Disturbance.andThen d).failure = none := by
  induction disturbances generalizing d with
  | nil => exact hd
  | cons other disturbances ih =>
    obtain ⟨hother, hrest⟩ := List.forall_mem_cons.mp hall
    exact ih hrest (schedulerFailure_orElse hd hother)

end Scene

def View.jobs : View JobScheduler.environment where
  look := World.scheduler
  fair world := ∀ hook ∈ world.hooks, Scene.schedulerFailure hook.disturbance.failure = none
  clock _ := trivial
  token _ := trivial
  unordered := trivial
  issue _ _ _ h := ⟨h, rfl⟩
  perform scene method nth c h := by
    let hooks := scene.world.hooks.filter (·.concerns method nth)
    obtain ⟨-, hhooks, hjobs⟩ := scene.applyHooks_frame hooks
    have hd : Scene.schedulerFailure ((hooks.map (·.disturbance)).foldl Disturbance.andThen .none).failure = none := by
      refine Scene.schedulerFailure_disturbances _ (fun other hother => ?_) rfl
      obtain ⟨hook, hhook, rfl⟩ := List.mem_map.mp hother
      exact h hook (List.mem_filter.mp hhook).1
    refine ⟨?_, hjobs ▸ Scene.respond_scheduler hd c⟩
    obtain ⟨w, hw⟩ := (hooks.foldl Scene.applyHook scene).exists_respond _ c
    rw [show (scene.perform method nth c).2 = _ from hw]
    exact fun hook hhook => h hook (hhooks ▸ hhook)
  respond scene c h := by
    obtain ⟨w, hw⟩ := scene.exists_respond .none c
    refine ⟨?_, Scene.respond_scheduler rfl c⟩
    rw [hw]
    exact h

namespace Instance

/-- At every moment at which no handler is at work and indexing is enabled, a full update is pending. -/
theorem Driven.pending {user : UserId} {jobs : JobScheduler} {told : List (JobId × JobResult)} {inst : Instance}
    {scene : Scene} (h : Driven .jobs user jobs told inst scene) (hidle : inst.handler = none)
    (hen : inst.worker.config.enabled = true) : ∃ job, scene.world.scheduler.pending? user = some job ∧
      (job.isPeriodicWith inst.worker.config.fullInterval = true ∨ job.periodic = false) := by
  have htrim : (inst.session .jobs told scene).trim.worker = inst.worker ∧
      (inst.session .jobs told scene).trim.world = scene.world.scheduler := by
    unfold Session.trim
    split <;> exact ⟨rfl, rfl⟩
  have hlives := (h.runs hidle).lives
  have hkeeps := hlives.keeps (htrim.1 ▸ hen)
  rw [hlives.sound.2, htrim.1, htrim.2] at hkeeps
  exact Worker.keeps_iff.mp hkeeps

end Instance

end Bench

end ContactsIndex
