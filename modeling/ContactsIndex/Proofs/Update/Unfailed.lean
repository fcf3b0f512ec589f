import ContactsIndex.Proofs.Program.Faulty
import ContactsIndex.Proofs.Source.Query
import ContactsIndex.Proofs.Update.Account
import ContactsIndex.Proofs.Update.Rebuild

/-!
# A full update without failures

A full update that completes and counts no failure has met none (`always_fullUpdate_unfailed`).
So it is one of those where nothing can fail, and it leaves exactly the listed contacts,
whatever was stored before and however much the store holds (`rebuilt_of_unfailed`).
-/

namespace ContactsIndex

open Program

variable {σ : Type}

/-! ## Nothing has failed -/

theorem Source.always_listUpdated_logged {env : Environment σ} {log : σ → List Exchange} (R : env.Records log)
    {since : Int} {limit : Limit} {s : σ} : (listUpdated since limit).Always env (fun result t => ∀ listing,
      result = .ok listing → ∃ rows, log t = log s ++ [⟨.updated since limit, .ok (some rows)⟩]) s := by
  apply Program.always_ask.mpr
  intro t hd reply u ha
  apply (always_listing ..).mono
  intro result v ⟨hd', hcase⟩ listing hok
  rcases hcase with ⟨e, he, -⟩ | ⟨rows, rfl, -⟩
  · cases he.symm.trans hok
  · exact ⟨rows, by rw [R.drift hd', R.answers ha, R.drift hd]⟩

namespace CycleContext

variable {env : Environment σ} {log : σ → List Exchange} {s : σ} (R : env.Records log) (context : CycleContext)

include R

theorem always_rebuild_unfailed (stats : Stats) (hlog : log s = []) : (context.rebuild stats).Always env
    (fun p t => p.1 = .ok .completed → p.2.failed = 0 → ∀ x ∈ log t, ¬ x.Failed) s := by
  apply Program.always_isCancelled.mpr
  intro b _
  cases b with
  | true => exact Program.always_pure.mpr fun _ _ => nofun
  | false =>
    apply Program.always_ask.mpr
    intro t₁ hd₁ reply t₂ ha₁
    rcases reply with e | indexed
    · exact Program.always_pure.mpr fun _ _ => nofun
    · apply (Source.always_listUpdated_logged R).bind
      intro result t₃ hlisted
      rcases result with e | current
      · exact Program.always_pure.mpr fun _ _ => nofun
      · obtain ⟨rows, hlog₃⟩ := hlisted current rfl
        rw [R.answers ha₁, R.drift hd₁, hlog] at hlog₃
        apply (Account.ended_apply R _).mono
        intro ⟨result, stats'⟩ t ⟨batcher, hended⟩ hok hclean
        obtain rfl : result = .ok .completed := hok
        obtain ⟨-, reads, -, sent, hsent, haccount⟩ := hended
        have hsent_clean : ∀ x ∈ sent, ¬ x.Failed := by
          intro x hx hf
          have hcounted := haccount.failed.mp ⟨x, hx, hf⟩
          dsimp only at hcounted hclean
          omega
        rw [hsent, hlog₃]
        refine List.forall_mem_append.mpr ⟨?_, hsent_clean⟩
        simp [Exchange.Failed, Call.Failed, Call.Refused]

theorem always_fullUpdate_unfailed (hlog : log s = []) : context.fullUpdate.Always env (fun outcome t =>
    outcome.result = .ok .completed → outcome.stats.failed = 0 → ∀ x ∈ log t, ¬ x.Failed) s := by
  refine Program.always_readClock.mpr fun began _ => (context.always_rebuild_unfailed R _ hlog).bind ?_
  intro p t hp
  refine Program.always_readClock.mpr fun ended _ => Program.always_record.mpr (Program.always_pure.mpr fun u hd => ?_)
  rw [R.drift hd]
  exact hp

end CycleContext

/-! ## Where nothing can fail -/

theorem Desk.Invariant.and {env : Environment σ} {policy : Policy} {deleted : List String}
    {inv inv' : Desk → σ → Prop} (h : Invariant env policy deleted inv) (h' : Invariant env policy deleted inv') :
    Invariant env policy deleted fun desk s => inv desk s ∧ inv' desk s where
  drift hi hd := ⟨h.drift hi.1 hd, h'.drift hi.2 hd⟩
  deletion hi := ⟨h.deletion hi.1, h'.deletion hi.2⟩
  update hi := ⟨h.update hi.1, h'.update hi.2⟩
  removed hi hgo ha := ⟨h.removed hi.1 hgo ha, h'.removed hi.2 hgo ha⟩
  written hne hi ha := ⟨h.written hne hi.1 ha, h'.written hne hi.2 ha⟩
  unread hne hi hgo ha hf := ⟨h.unread hne hi.1 hgo ha hf, h'.unread hne hi.2 hgo ha hf⟩
  vanished hne hi hgo ha := ⟨h.vanished hne hi.1 hgo ha, h'.vanished hne hi.2 hgo ha⟩
  compared hne hi hgo ha hd ha' hnow :=
    ⟨h.compared hne hi.1 hgo ha hd ha' hnow, h'.compared hne hi.2 hgo ha hd ha' hnow⟩
  uncompared hne hi hgo ha hd ha' := ⟨h.uncompared hne hi.1 hgo ha hd ha', h'.uncompared hne hi.2 hgo ha hd ha'⟩

theorem Environment.Smooth.invariant {env : Environment σ} (h : env.Smooth) (policy : Policy) (deleted : List String) :
    Desk.Invariant env policy deleted fun desk _ => ¬ desk.failed where
  drift hi _ := hi
  deletion hi := hi
  update hi := hi
  removed hi _ ha := not_or.mpr ⟨hi, h.answered ha⟩
  written _ hi ha := not_or.mpr ⟨hi, h.answered ha⟩
  unread _ _ _ ha hf := absurd hf (h.answered ha)
  vanished _ hi _ _ := hi
  compared _ hi _ _ _ _ _ := hi
  uncompared _ _ _ _ _ ha := absurd (fun _ hr => nomatch hr) (h.answered ha)

namespace Collaborators

variable {w v v' : Collaborators} {c : Call} {reply : c.Reply}

theorem serve_eq_of_unfailing (h : faulty.unfailing.answers c v reply v') : (reply, v') = v.serve c :=
  h.1.resolve_right fun hf => h.2 hf.1

theorem store_eq_of_unfailing (h : faulty.unfailing.answers c v reply v') (hc : c.writes = false) :
    v'.store = v.store := by
  rw [show v' = (v.serve c).2 from congrArg Prod.snd (serve_eq_of_unfailing h)]
  exact v.serve_store hc

theorem sameSource_of_unfailing (h : faulty.unfailing.answers c v reply v') : SameSource v v' := by
  rw [show v' = (v.serve c).2 from congrArg Prod.snd (serve_eq_of_unfailing h)]
  exact v.sameSource_serve c

theorem contacts_of_unfailing {ids : List String} {reply : (Call.contacts ids).Reply}
    (h : faulty.unfailing.answers (.contacts ids) v reply v') : reply = .ok (some (v.book.contactsOf ids)) := by
  have hreply : reply = (v.serve (.contacts ids)).1 := congrArg Prod.fst (serve_eq_of_unfailing h)
  obtain ⟨found, rfl⟩ : ∃ found, reply = .ok (some found) := Classical.byContradiction fun hnone =>
    h.2 fun found hf => hnone ⟨found, hf⟩
  rw [(serve_contacts_iff.mp hreply.symm).2]

theorem updated_of_unfailing {since : Int} {limit : Limit} {reply : (Call.updated since limit).Reply}
    (h : faulty.unfailing.answers (.updated since limit) v reply v') :
    v.book.available = true ∧ reply = .ok (some (v.book.updatedRows since limit)) := by
  have hreply : reply = (v.serve (.updated since limit)).1 := congrArg Prod.fst (serve_eq_of_unfailing h)
  obtain ⟨rows, rfl⟩ : ∃ rows, reply = .ok (some rows) := Classical.byContradiction fun hnone =>
    h.2 fun rows hr => hnone ⟨rows, hr⟩
  obtain ⟨havailable, rfl⟩ := serve_updated_iff.mp hreply.symm
  exact ⟨havailable, rfl⟩

theorem alone_unfailing (w : Collaborators) :
    Alone faulty.unfailing Collaborators.store w.book.get? (SameSource w) where
  uncancelled h := nomatch h
  drift h := h
  contacts ha hw := by
    refine ⟨store_eq_of_unfailing ha rfl, _, contacts_of_unfailing ha, fun c => ?_⟩
    simp only [AddressBook.mem_contactsOf, hw.book.get?]
  entries ha := ⟨store_eq_of_unfailing ha rfl, congrArg Prod.fst (serve_eq_of_unfailing ha)⟩
  put ha := ⟨congrArg (·.2.store) (serve_eq_of_unfailing ha), congrArg Prod.fst (serve_eq_of_unfailing ha)⟩
  remove ha := ⟨congrArg (·.2.store) (serve_eq_of_unfailing ha), congrArg Prod.fst (serve_eq_of_unfailing ha)⟩

theorem always_update_unfailing (policy : Policy) {listed unwanted : List String} (stats : Stats)
    (hid : ∀ {id c}, w.book.get? id = some c → c.id = id) (hnodup : listed.Nodup) (hv : SameSource w v) :
    (Corpus.update policy listed unwanted stats).Always faulty.unfailing (fun p t => p.1 = .ok .completed →
      SameSource w t ∧ ∀ id, Meant (fun _ => True) w.book.get? v.store listed unwanted id (t.store.get? id)) v := by
  have hfollows : Desk.Invariant faulty.unfailing policy unwanted fun desk t => (¬ desk.failed → ∃ ds us,
      Follows (fun _ => True) w.book.get? v.store listed unwanted ds us desk t.store) ∧ SameSource w t :=
    (alone_unfailing w).invariant (Follows.kept hid) fun ha _ hw => hw.trans (sameSource_of_unfailing ha)
  have hinv := hfollows.and (smooth_unfailing.invariant policy unwanted)
  apply (hinv.apply (Candidate.deletedIds_update ..)
    ⟨⟨fun _ => ⟨_, _, .start hnodup ⟨0, trivial⟩⟩, hv⟩, not_false⟩).mono
  intro ⟨result, stats'⟩ t hended hok
  obtain rfl : result = .ok .completed := hok
  obtain ⟨failed, ⟨⟨hend, hsame⟩, hnone⟩, -⟩ := hended
  obtain ⟨ds, us, hend⟩ := hend hnone
  exact ⟨hsame, hend.finish⟩

theorem always_listUpdated_unfailing (v : Collaborators) (since : Int) (limit : Limit) :
    (Source.listUpdated since limit).Always faulty.unfailing (fun result t => v.book.available = true ∧
      result = .ok (.ofRows since (v.book.updatedRows since limit) limit) ∧ SameSource v t ∧ t.store = v.store) v := by
  apply Program.always_ask.mpr
  intro t hd reply u ha
  obtain rfl : t = v := hd
  obtain ⟨havailable, rfl⟩ := updated_of_unfailing ha
  refine Program.always_pure.mpr fun u' hd' => ?_
  obtain rfl : u' = u := hd'
  exact ⟨havailable, rfl, sameSource_of_unfailing ha, store_eq_of_unfailing ha rfl⟩

theorem always_rebuild_unfailing (context : CycleContext) (stats : Stats)
    (hid : ∀ {id c}, w.book.get? id = some c → c.id = id) :
    (context.rebuild stats).Always faulty.unfailing (fun p t => p.1 = .ok .completed →
      w.book.available = true ∧ SameSource w t ∧ w.Rebuilt t (context.listed w)) w := by
  apply Program.always_isCancelled.mpr
  intro b hb
  obtain rfl : b = false := hb
  apply Program.always_ask.mpr
  intro t₁ hd₁ reply t₂ ha₁
  obtain rfl : t₁ = w := hd₁
  have hsame₂ := sameSource_of_unfailing ha₁
  have hstore₂ := store_eq_of_unfailing ha₁ rfl
  obtain rfl : reply = .ok t₁.store.ids := congrArg Prod.fst (serve_eq_of_unfailing ha₁)
  dsimp only
  apply (always_listUpdated_unfailing t₂ 0 context.config.limitOfFull).bind
  intro result t₃ ⟨havailable, hresult, hsame₃, hstore₃⟩
  rw [hsame₂.available] at havailable
  rw [hsame₂.book.updatedRows] at hresult
  subst hresult
  have hnewest : t₁.book.Newest 0 context.config.limitOfFull (context.listed t₁) := AddressBook.newest_listed hid ..
  apply (always_update_unfailing _ _ hid hnewest.nodup (hsame₂.trans hsame₃)).mono
  intro p t hp hok
  obtain ⟨hsame, hmeant⟩ := hp hok
  rw [hstore₃, hstore₂] at hmeant
  refine ⟨havailable, hsame, .of_meant (fun id hm => ?_) hmeant⟩
  obtain ⟨c, hc, -⟩ := hnewest.touched id hm
  exact ⟨c, hc⟩

theorem rebuilt_of_unfailed {context : CycleContext} {outcome : CycleContext.FullOutcome}
    (hid : ∀ {id c}, w.book.get? id = some c → c.id = id) (h : Ends faulty context.fullUpdate w outcome v)
    (hcompleted : outcome.result = .ok .completed) (hunfailed : outcome.stats.failed = 0) :
    w.book.available = true ∧ SameSource w v ∧ w.Rebuilt v (context.listed w) := by
  obtain ⟨log, hlogged, hunfailing⟩ := Environment.exists_logged h []
  have hclean := (context.always_fullUpdate_unfailed faulty.records_logging rfl).ends hlogged hcompleted hunfailed
  have hall : context.fullUpdate.Always faulty.unfailing (fun outcome t => outcome.result = .ok .completed →
      w.book.available = true ∧ SameSource w t ∧ w.Rebuilt t (context.listed w)) w := by
    refine Program.always_readClock.mpr fun began _ => (always_rebuild_unfailing context _ hid).bind ?_
    intro p t hp
    refine Program.always_readClock.mpr fun ended _ =>
      Program.always_record.mpr (Program.always_pure.mpr fun u hd => ?_)
    obtain rfl : u = t := hd
    exact hp
  exact hall.ends (hunfailing hclean) hcompleted

end Collaborators

end ContactsIndex
