import ContactsIndex.Proofs.Program.Failure
import ContactsIndex.Source.Query

/-!
# Answers to listing queries

Whatever a program meets, a listing that it gets is made of rows that the provider has
given it on the way; and unless something fails, it gets one.
-/

namespace ContactsIndex

variable {σ : Type}

/-- What may happen while the provider is asked for listings. -/
structure Environment.Passes (env : Environment σ) (R : σ → σ → Prop) : Prop where
  refl : ∀ s, R s s
  trans : ∀ {s t u}, R s t → R t u → R s u
  drift : ∀ {s t}, env.drift s t → R s t
  updated : ∀ {since limit s reply t}, env.answers (.updated since limit) s reply t → R s t
  deleted : ∀ {since s reply t}, env.answers (.deleted since) s reply t → R s t

def Environment.Answered (env : Environment σ) (R : σ → σ → Prop) (c : Call) (s : σ)
    (reply : c.Reply) (t : σ) : Prop :=
  ∃ s' t', R s s' ∧ env.answers c s' reply t' ∧ R t' t

namespace Source

variable {env : Environment σ} {R : σ → σ → Prop} {s t : σ} {since : Int} {limit : Limit}

/-- A result is an error, which only a failure explains, or else it is as `ok` says. -/
def Got {α : Type} (env : Environment σ) (R : σ → σ → Prop) (s : σ) (ok : α → σ → Prop)
    (result : Except SourceError α) (t : σ) : Prop :=
  R s t ∧ ((∃ e, result = .error e ∧ ¬ env.Smooth) ∨ ∃ a, result = .ok a ∧ ok a t)

def Listed (env : Environment σ) (R : σ → σ → Prop) (s : σ) (since : Int) (limit : Limit) (c : Call)
    (rows? : List ChangeRow → c.Reply) (listing : Listing) (t : σ) : Prop :=
  ∃ rows, env.Answered R c s (rows? rows) t ∧ listing = .ofRows since rows limit

theorem always_listing (query : String) (since : Int) (limit : Limit)
    (reply : Except ProviderError (Option (List ChangeRow))) :
    (listing query since limit reply).Always env
      (fun result t => env.drift s t ∧ ((∃ e, result = .error e ∧ ∀ rows, reply ≠ .ok (some rows)) ∨
        ∃ rows, reply = .ok (some rows) ∧ result = .ok (.ofRows since rows limit))) s := by
  rcases reply with e | _ | rows
  · exact Program.always_pure.mpr fun t hd => ⟨hd, .inl ⟨_, rfl, fun _ hr => nomatch hr⟩⟩
  · exact fun t hd => ⟨hd, .inl ⟨_, rfl, fun _ hr => nomatch hr⟩⟩
  · exact Program.always_pure.mpr fun t hd => ⟨hd, .inr ⟨rows, rfl, rfl⟩⟩

variable (P : env.Passes R)

include P

theorem listing_answered {c : Call} {answer : c.Reply} {u : σ} {query : String}
    {rows? : List ChangeRow → c.Reply} {reply : Except ProviderError (Option (List ChangeRow))}
    (hs : R s t) (ha : env.answers c t answer u) (hu : R t u)
    (hrows : ∀ rows, reply = .ok (some rows) → answer = rows? rows)
    (hfailed : (∀ rows, reply ≠ .ok (some rows)) → c.Failed answer) :
    (listing query since limit reply).Always env
      (Got env R s (Listed env R s since limit c rows?)) u := by
  apply (always_listing query since limit reply).mono
  intro result v h
  refine ⟨P.trans hs (P.trans hu (P.drift h.1)), ?_⟩
  rcases h.2 with ⟨e, he, hno⟩ | ⟨rows, hreply, he⟩
  · exact .inl ⟨e, he, fun hsm => hsm.answered ha (hfailed hno)⟩
  · rw [hrows rows hreply] at ha
    exact .inr ⟨_, he, rows, ⟨t, u, hs, ha, P.drift h.1⟩, rfl⟩

theorem updated_answered {u : σ} {reply : (Call.updated since limit).Reply} (hs : R s t)
    (ha : env.answers (.updated since limit) t reply u) : (listing "updated" since limit reply).Always env
      (Got env R s (Listed env R s since limit (.updated since limit) (.ok ∘ some))) u :=
  listing_answered P hs ha (P.updated ha) (fun _ he => he) (fun hno => hno)

theorem deleted_answered {u : σ} {reply : (Call.deleted since).Reply} (hs : R s t)
    (ha : env.answers (.deleted since) t reply u) : (listing "deleted" since .unlimited reply).Always env
      (Got env R s (Listed env R s since .unlimited (.deleted since) (.ok ∘ some))) u :=
  listing_answered P hs ha (P.deleted ha) (fun _ he => he) (fun hno => hno)

theorem always_listUpdated : (listUpdated since limit).Always env
    (Got env R s (Listed env R s since limit (.updated since limit) (.ok ∘ some))) s :=
  Program.always_ask.mpr fun _ hd _ _ ha => updated_answered P (P.drift hd) ha

theorem always_listDeleted : (listDeleted since).Always env
    (Got env R s (Listed env R s since .unlimited (.deleted since) (.ok ∘ some))) s :=
  Program.always_ask.mpr fun _ hd _ _ ha => deleted_answered P (P.drift hd) ha

omit P in
theorem Listed.between (P : env.Passes R) {c : Call} {rows? : List ChangeRow → c.Reply}
    {listing : Listing} {s' t' : σ} (h : Listed env R s since limit c rows? listing t) (hs : R s' s)
    (ht : R t t') :
    Listed env R s' since limit c rows? listing t' := by
  obtain ⟨rows, ⟨u, v, hu, ha, hv⟩, he⟩ := h
  exact ⟨rows, ⟨u, v, P.trans hs hu, ha, P.trans hv ht⟩, he⟩

theorem always_listBoth {updatedSince deletedSince : Int} :
    (listBoth updatedSince limit deletedSince).Always env (Got env R s fun both t =>
      Listed env R s updatedSince limit (.updated updatedSince limit) (.ok ∘ some) both.1 t ∧
        Listed env R s deletedSince .unlimited (.deleted deletedSince) (.ok ∘ some) both.2 t) s := by
  intro s₀ hd₀
  have h₀ := P.drift hd₀
  constructor
  · intro reply s₁ ha
    apply (updated_answered P h₀ ha).bind
    intro result s₂ h₂
    rcases h₂.2 with ⟨e, rfl, hno⟩ | ⟨updated, rfl, hupdated⟩
    · exact Program.always_pure.mpr fun t hd => ⟨P.trans h₂.1 (P.drift hd), .inl ⟨e, rfl, hno⟩⟩
    · refine (always_listDeleted P).bind fun result s₃ h₃ => Program.always_pure.mpr ?_
      intro t hd
      have ht := P.trans h₃.1 (P.drift hd)
      refine ⟨P.trans h₂.1 ht, ?_⟩
      rcases h₃.2 with ⟨e, rfl, hno⟩ | ⟨deleted, rfl, hdeleted⟩
      · exact .inl ⟨e, rfl, hno⟩
      · exact .inr ⟨_, rfl, hupdated.between P (P.refl s) ht, hdeleted.between P h₂.1 (P.drift hd)⟩
  · intro _ reply s₁ ha
    apply (deleted_answered P h₀ ha).bind
    intro result s₂ h₂
    rcases h₂.2 with ⟨e, rfl, hno⟩ | ⟨deleted, rfl, hdeleted⟩
    · exact Program.always_pure.mpr fun t hd => ⟨P.trans h₂.1 (P.drift hd), .inl ⟨e, rfl, hno⟩⟩
    · refine (always_listUpdated P).bind fun result s₃ h₃ => Program.always_pure.mpr ?_
      intro t hd
      have ht := P.trans h₃.1 (P.drift hd)
      refine ⟨P.trans h₂.1 ht, ?_⟩
      rcases h₃.2 with ⟨e, rfl, hno⟩ | ⟨updated, rfl, hupdated⟩
      · exact .inl ⟨e, rfl, hno⟩
      · exact .inr ⟨_, rfl, hupdated.between P h₂.1 (P.drift hd), hdeleted.between P (P.refl s) ht⟩

end Source

end ContactsIndex
