import ContactsIndex.Program.Basic

/-!
# Programs among others

An environment answers calls as it likes within bounds, and others change the world
between two calls of a program. `Step` and `Ends` say what a program can do there.
`Always post p s` says that however `p` goes on from `s`, it ends with `post`; it is
kept by every step of the program (`Always.step`) and by whatever others do in
between (`Always.drift`), and it is built up along the program (`always_bind`).
-/

namespace ContactsIndex

/-- What a program meets: the times the clock may show, the states the cancellation
token may be in, how calls may be answered, and what others may do meanwhile. -/
structure Environment (σ : Type) where
  clock : Int → Prop
  token : Bool → Prop
  answers : (c : Call) → σ → c.Reply → σ → Prop
  /-- Whether the second of two calls under way may be answered first. -/
  unordered : Prop
  drift : σ → σ → Prop
  drift_refl : ∀ s, drift s s
  drift_trans : ∀ {s t u}, drift s t → drift t u → drift s u

def Environment.among {σ : Type} (env : Environment σ) (drift : σ → σ → Prop) (refl : ∀ s, drift s s)
    (trans : ∀ {s t u}, drift s t → drift t u → drift s u) : Environment σ :=
  { env with drift := drift, drift_refl := refl, drift_trans := trans }

namespace Program

variable {σ α β : Type} {env : Environment σ} {s t : σ}

/-! ## What a program can do -/

inductive Step (env : Environment σ) : Program α → σ → Program α → σ → Prop
  | now {next s t} : env.clock t → Step env (.now next) s (next t) s
  | cancelled {next s b} : env.token b → Step env (.cancelled next) s (next b) s
  | note {event next s} : Step env (.note event next) s next s
  | answer {job result next s} : Step env (.answer job result next) s next s
  | call {c next s r t} : env.answers c s r t → Step env (.call c next) s (next r) t
  | first {c d next later s r t} : env.answers c s r t → Step env (.both c d next later) s (next r) t
  | second {c d next later s r t} : env.unordered → env.answers d s r t →
      Step env (.both c d next later) s (later r) t

/-- A run from beginning to end with nobody else around. -/
inductive Ends (env : Environment σ) : Program α → σ → α → σ → Prop
  | done {a s} : Ends env (.done a) s a s
  | step {p q a s t u} : Step env p s q t → Ends env q t a u → Ends env p s a u

theorem Step.among {p q : Program α} (h : Step env p s q t) (drift : σ → σ → Prop)
    (refl : ∀ s, drift s s) (trans : ∀ {s t u}, drift s t → drift t u → drift s u) :
    Step (env.among drift refl trans) p s q t := by
  cases h with
  | now ht => exact .now ht
  | cancelled hb => exact .cancelled hb
  | note => exact .note
  | answer => exact .answer
  | call ha => exact .call ha
  | first ha => exact .first ha
  | second ho ha => exact .second ho ha

/-! ## What it always does -/

def Always (env : Environment σ) (post : α → σ → Prop) : Program α → σ → Prop
  | .done a, s => ∀ t, env.drift s t → post a t
  | .now next, s => ∀ time, env.clock time → (next time).Always env post s
  | .cancelled next, s => ∀ b, env.token b → (next b).Always env post s
  | .note _ next, s => next.Always env post s
  | .answer _ _ next, s => next.Always env post s
  | .call c next, s => ∀ t, env.drift s t → ∀ r u, env.answers c t r u → (next r).Always env post u
  | .both c d next later, s => ∀ t, env.drift s t →
      (∀ r u, env.answers c t r u → (next r).Always env post u) ∧
        (env.unordered → ∀ r u, env.answers d t r u → (later r).Always env post u)

variable {post mid : α → σ → Prop} {goal : β → σ → Prop} {p : Program α}

theorem Always.drift (h : p.Always env post s) (hd : env.drift s t) : p.Always env post t := by
  induction p generalizing s t with
  | done a => exact fun u hu => h u (env.drift_trans hd hu)
  | now next ih => exact fun time ht => ih time (h time ht) hd
  | cancelled next ih => exact fun b hb => ih b (h b hb) hd
  | note event next ih => exact ih h hd
  | answer job result next ih => exact ih h hd
  | call c next ih => exact fun u hu => h u (env.drift_trans hd hu)
  | both c d next later _ _ => exact fun u hu => h u (env.drift_trans hd hu)

theorem Always.step {q : Program α} (h : p.Always env post s) (hs : Step env p s q t) :
    q.Always env post t := by
  cases hs with
  | now ht => exact h _ ht
  | cancelled hb => exact h _ hb
  | note => exact h
  | answer => exact h
  | call hr => exact h _ (env.drift_refl _) _ _ hr
  | first hr => exact (h _ (env.drift_refl _)).1 _ _ hr
  | second ho hr => exact (h _ (env.drift_refl _)).2 ho _ _ hr

theorem Always.done {a : α} (h : (Program.done a).Always env post s) : post a s :=
  h s (env.drift_refl s)

theorem Always.ends {a : α} (h : p.Always env post s) (he : Ends env p s a t) : post a t := by
  induction he with
  | done => exact h.done
  | step hs _ ih => exact ih (h.step hs)

theorem Always.mono (h : p.Always env mid s) (hq : ∀ a t, mid a t → post a t) :
    p.Always env post s := by
  induction p generalizing s with
  | done a => exact fun t ht => hq a t (h t ht)
  | now next ih => exact fun time ht => ih time (h time ht)
  | cancelled next ih => exact fun b hb => ih b (h b hb)
  | note event next ih => exact ih h
  | answer job result next ih => exact ih h
  | call c next ih => exact fun t ht r u hr => ih r (h t ht r u hr)
  | both c d next later ih ih' =>
    exact fun t ht => ⟨fun r u hr => ih r ((h t ht).1 r u hr),
      fun ho r u hr => ih' r ((h t ht).2 ho r u hr)⟩

theorem Always.and {post' : α → σ → Prop} (h : p.Always env post s) (h' : p.Always env post' s) :
    p.Always env (fun a t => post a t ∧ post' a t) s := by
  induction p generalizing s with
  | done a => exact fun t ht => ⟨h t ht, h' t ht⟩
  | now next ih => exact fun time ht => ih time (h time ht) (h' time ht)
  | cancelled next ih => exact fun b hb => ih b (h b hb) (h' b hb)
  | note event next ih => exact ih h h'
  | answer job result next ih => exact ih h h'
  | call c next ih => exact fun t ht r u hr => ih r (h t ht r u hr) (h' t ht r u hr)
  | both c d next later ih ih' =>
    exact fun t ht => ⟨fun r u hr => ih r ((h t ht).1 r u hr) ((h' t ht).1 r u hr),
      fun ho r u hr => ih' r ((h t ht).2 ho r u hr) ((h' t ht).2 ho r u hr)⟩

/-! ## Along a program -/

theorem always_pure {a : α} : (pure a : Program α).Always env post s ↔
    ∀ t, env.drift s t → post a t := Iff.rfl

theorem always_bind {f : α → Program β} :
    (p >>= f).Always env goal s ↔ p.Always env (fun a t => (f a).Always env goal t) s := by
  change (p.bind f).Always env goal s ↔ _
  induction p generalizing s with
  | done a => exact ⟨fun h t ht => h.drift ht, fun h => h s (env.drift_refl s)⟩
  | now next ih => exact forall₂_congr fun time _ => ih time
  | cancelled next ih => exact forall₂_congr fun b _ => ih b
  | note event next ih => exact ih
  | answer job result next ih => exact ih
  | call c next ih => exact forall₂_congr fun t _ => forall₃_congr fun r u _ => ih r
  | both c d next later ih ih' =>
    exact forall₂_congr fun t _ => and_congr (forall₃_congr fun r u _ => ih r)
      (imp_congr_right fun _ => forall₃_congr fun r u _ => ih' r)

theorem Always.bind {f : α → Program β} (h : p.Always env mid s)
    (hf : ∀ a t, mid a t → (f a).Always env goal t) : (p >>= f).Always env goal s :=
  always_bind.mpr (h.mono hf)

theorem always_ask {c : Call} {f : c.Reply → Program β} : (ask c >>= f).Always env goal s ↔
    ∀ t, env.drift s t → ∀ r u, env.answers c t r u → (f r).Always env goal u := Iff.rfl

theorem always_readClock {f : Int → Program β} : (readClock >>= f).Always env goal s ↔
    ∀ time, env.clock time → (f time).Always env goal s := Iff.rfl

theorem always_isCancelled {f : Bool → Program β} : (isCancelled >>= f).Always env goal s ↔
    ∀ b, env.token b → (f b).Always env goal s := Iff.rfl

theorem always_record {event : Note} {f : Unit → Program β} : (record event >>= f).Always env goal s ↔
    (f ()).Always env goal s := Iff.rfl

/-! ## What the clock has shown -/

/-- The program, which gives the time that it has read last as well; before it began, that was `last`. -/
def clocked : Program α → Option Int → Program (α × Option Int)
  | .done a, last => .done (a, last)
  | .now next, _ => .now fun time => (next time).clocked (some time)
  | .cancelled next, last => .cancelled fun b => (next b).clocked last
  | .note event next, last => .note event (next.clocked last)
  | .answer job result next, last => .answer job result (next.clocked last)
  | .call c next, last => .call c fun r => (next r).clocked last
  | .both c d next later, last => .both c d (fun r => (next r).clocked last) fun r => (later r).clocked last

theorem clocked_bind (f : α → Program β) (last : Option Int) :
    (p >>= f).clocked last = p.clocked last >>= fun r => (f r.1).clocked r.2 := by
  change (p.bind f).clocked last = (p.clocked last).bind _
  induction p generalizing last with
  | done a => rfl
  | now next ih => exact congrArg Program.now (funext fun time => ih time (some time))
  | cancelled next ih => exact congrArg Program.cancelled (funext fun b => ih b last)
  | note event next ih => exact congrArg (Program.note event) (ih last)
  | answer job result next ih => exact congrArg (Program.answer job result) (ih last)
  | call c next ih => exact congrArg (Program.call c) (funext fun r => ih r last)
  | both c d next later ih ih' =>
    exact congr (congrArg (Program.both c d) (funext fun r => ih r last)) (funext fun r => ih' r last)

theorem Step.clocked {q : Program α} (h : Step env p s q t) (last : Option Int) :
    ∃ last', Step env (p.clocked last) s (q.clocked last') t := by
  cases h with
  | now ht => exact ⟨_, .now ht⟩
  | cancelled hb => exact ⟨last, .cancelled hb⟩
  | note => exact ⟨last, .note⟩
  | answer => exact ⟨last, .answer⟩
  | call ha => exact ⟨last, .call ha⟩
  | first ha => exact ⟨last, .first ha⟩
  | second ho ha => exact ⟨last, .second ho ha⟩

theorem Ends.clocked {a : α} (h : Ends env p s a t) (last : Option Int) :
    ∃ last', Ends env (p.clocked last) s (a, last') t := by
  induction h generalizing last with
  | done => exact ⟨last, .done⟩
  | step hs _ ih =>
    obtain ⟨last', hstep⟩ := hs.clocked last
    exact (ih last').imp fun _ => .step hstep

/-- There are runs that end so, and they have all read `time` last. -/
def LastRead (env : Environment σ) (p : Program α) (s : σ) (a : α) (t : σ) (time : Int) : Prop :=
  ∀ last, Ends env (p.clocked none) s (a, last) t ↔ last = some time

end Program

end ContactsIndex
