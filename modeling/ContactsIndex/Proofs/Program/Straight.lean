import ContactsIndex.Proofs.Program.Collaborators

/-!
# The states that a run passes

What a program does always, it does in a run without interruption (`Always.run`). To say
something of the states on the way, a run can be made to remember them: `remembering`
surroundings answer as before and keep the states in which they were called.
-/

namespace ContactsIndex.Program

variable {σ α : Type}

/-- The answers of the surroundings, and nobody else around. -/
def Surroundings.environment (surroundings : Surroundings σ) : Environment σ where
  clock time := ∃ s, surroundings.clock s = time
  token b := ∃ s, surroundings.token s = b
  answers c s r t := surroundings.reply c s = (r, t)
  unordered := False
  drift s t := t = s
  drift_refl _ := rfl
  drift_trans h h' := h'.trans h

/-- Notes and answers to jobs are not part of the state. -/
structure Surroundings.Plain (surroundings : Surroundings σ) : Prop where
  note : ∀ event s, surroundings.note event s = s
  answer : ∀ job result s, surroundings.answer job result s = s

theorem Surroundings.Plain.within {surroundings : Surroundings σ} (h : surroundings.Plain) :
    surroundings.Within surroundings.environment where
  clock s := ⟨s, rfl⟩
  token s := ⟨s, rfl⟩
  note := h.note
  answer := h.answer
  reply _ _ := rfl

theorem Always.run {surroundings : Surroundings σ} {post : α → σ → Prop} {p : Program α} {s : σ}
    (h : p.Always surroundings.environment post s) (hp : surroundings.Plain) :
    post (p.run surroundings s).1 (p.run surroundings s).2 :=
  h.ends (ends_run hp.within p s)

/-- The states in which a run makes its calls, and the one in which it ends. -/
def passed (env : Surroundings σ) : Program α → σ → List σ
  | done _, s => [s]
  | now next, s => passed env (next (env.clock s)) s
  | cancelled next, s => passed env (next (env.token s)) s
  | note event next, s => passed env next (env.note event s)
  | answer job result next, s => passed env next (env.answer job result s)
  | call c next, s => s :: passed env (next (env.reply c s).1) (env.reply c s).2
  | both c _ afterFirst _, s => s :: passed env (afterFirst (env.reply c s).1) (env.reply c s).2

def Surroundings.remembering (env : Surroundings σ) : Surroundings (σ × List σ) where
  clock w := env.clock w.1
  token w := env.token w.1
  note event w := (env.note event w.1, w.2)
  answer job result w := (env.answer job result w.1, w.2)
  reply c w := ((env.reply c w.1).1, (env.reply c w.1).2, w.2 ++ [w.1])

theorem Surroundings.Plain.remembering {env : Surroundings σ} (h : env.Plain) : env.remembering.Plain where
  note event w := by simp [Surroundings.remembering, h.note]
  answer job result w := by simp [Surroundings.remembering, h.answer]

theorem run_remembering (env : Surroundings σ) (p : Program α) (s : σ) (past : List σ) :
    ∃ before, p.run env.remembering (s, past) = ((p.run env s).1, (p.run env s).2, past ++ before) ∧
      p.passed env s = before ++ [(p.run env s).2] := by
  induction p generalizing s past with
  | done a => exact ⟨[], by simp [run], rfl⟩
  | now next ih => exact ih _ s past
  | cancelled next ih => exact ih _ s past
  | note event next ih => exact ih _ past
  | answer job result next ih => exact ih _ past
  | call c next ih =>
    obtain ⟨before, hrun, hpassed⟩ := ih (env.reply c s).1 (env.reply c s).2 (past ++ [s])
    refine ⟨s :: before, ?_, congrArg (s :: ·) hpassed⟩
    rw [List.append_assoc] at hrun
    exact hrun
  | both c d next later ih _ =>
    obtain ⟨before, hrun, hpassed⟩ := ih (env.reply c s).1 (env.reply c s).2 (past ++ [s])
    refine ⟨s :: before, ?_, congrArg (s :: ·) hpassed⟩
    rw [List.append_assoc] at hrun
    exact hrun

end ContactsIndex.Program
