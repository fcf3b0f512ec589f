import ContactsIndex.Bench.World

/-!
# Threads

A program in the middle of its run. It advances until it ends or until each of its
calls under way waits at a closed gate. A call is logged and numbered when it is
made, so a call that waits is not made again.
-/

namespace ContactsIndex.Bench

/-- A call under way: its number, and how often its gate had been opened when it was
made. `admitted` calls did not find the gate closed. -/
structure Issued where
  method : Method
  nth : Nat
  admitted : Bool
  openings : Nat
  deriving DecidableEq, Repr

structure Thread (α : Type) where
  program : Program α
  issued : List Issued

namespace Thread

variable {α : Type}

def of (program : Program α) : Thread α :=
  ⟨program, []⟩

def attend (method : Method) (c : Call) (issued : List Issued) (scene : Scene) : Issued × List Issued × Scene :=
  match issued.find? (·.method = method) with
  | some call => (call, issued, scene)
  | none =>
    let (nth, scene) := scene.issue method c
    let gate := scene.world.gates method
    let call := ⟨method, nth, !gate.closed, gate.openings⟩
    (call, call :: issued, scene)

def mayPass (call : Issued) (scene : Scene) : Bool :=
  call.admitted || call.openings < (scene.world.gates call.method).openings

def attempt (c : Call) (issued : List Issued) (scene : Scene) : Option c.Reply × List Issued × Scene :=
  match methodOf c with
  | none =>
    let (reply, scene) := scene.respond .none c
    (some reply, issued, scene)
  | some method =>
    let (call, issued, scene) := attend method c issued scene
    if mayPass call scene then
      let (reply, scene) := scene.perform method call.nth c
      (some reply, issued.erase call, scene)
    else (none, issued, scene)

inductive Reached (α : Type) where
  | ended (value : α)
  | held (thread : Thread α)

def advanceProgram : Program α → List Issued → Scene → Reached α × Scene
  | .done a, _, scene => (.ended a, scene)
  | .now next, issued, scene => advanceProgram (next scene.time) issued scene
  | .cancelled next, issued, scene => advanceProgram (next scene.cancelled) issued scene
  | .note event next, issued, scene => advanceProgram next issued (scene.note event)
  | .answer job result next, issued, scene => advanceProgram next issued (scene.answer job result)
  | .call c next, issued, scene =>
    match attempt c issued scene with
    | (some reply, issued, scene) => advanceProgram (next reply) issued scene
    | (none, issued, scene) => (.held ⟨.call c next, issued⟩, scene)
  | .both c d afterFirst afterSecond, issued, scene =>
    match attempt c issued scene with
    | (some reply, issued, scene) => advanceProgram (afterFirst reply) issued scene
    | (none, issued, scene) =>
      match attempt d issued scene with
      | (some reply, issued, scene) => advanceProgram (afterSecond reply) issued scene
      | (none, issued, scene) => (.held ⟨.both c d afterFirst afterSecond, issued⟩, scene)

def advance (thread : Thread α) (scene : Scene) : Reached α × Scene :=
  advanceProgram thread.program thread.issued scene

def finish? (program : Program α) (scene : Scene) : Option (α × Scene) :=
  match (of program).advance scene with
  | (.ended value, scene) => some (value, scene)
  | (.held _, _) => none

end Thread

end ContactsIndex.Bench
