import ContactsIndex.Proofs.Update.Failing

/-!
# What a batcher sends

A batcher may be used in any order, its calls may be answered in any way, and it may be used on after
an error. Each use either keeps what is gathered with what comes in, or sends all of it at once: the
ids to remove, if there are any, and then the documents, if there are any (`Moves`). So over
any number of uses what was sent, followed by what is still gathered, is what came in, in its order,
and no batch is larger than it may be (`batches_in_order`).
-/

namespace ContactsIndex

open Program
open Exchange (free)

/-! ## The calls of a flush -/

namespace Call

def ofFlush (ids : List String) (docs : List Document) : List Call :=
  (if ids = [] then [] else [.remove ids]) ++ if docs = [] then [] else [.put docs]

def documentBatches (calls : List Call) : List (List Document) :=
  calls.filterMap fun
    | .put docs => some docs
    | _ => none

def removalBatches (calls : List Call) : List (List String) :=
  calls.filterMap fun
    | .remove ids => some ids
    | _ => none

theorem documentBatches_append (calls calls' : List Call) :
    documentBatches (calls ++ calls') = documentBatches calls ++ documentBatches calls' :=
  List.filterMap_append

theorem removalBatches_append (calls calls' : List Call) :
    removalBatches (calls ++ calls') = removalBatches calls ++ removalBatches calls' :=
  List.filterMap_append

theorem documentBatches_ofFlush (ids : List String) (docs : List Document) :
    documentBatches (ofFlush ids docs) = if docs = [] then [] else [docs] := by
  unfold ofFlush documentBatches
  split <;> split <;> rfl

theorem removalBatches_ofFlush (ids : List String) (docs : List Document) :
    removalBatches (ofFlush ids docs) = if ids = [] then [] else [ids] := by
  unfold ofFlush removalBatches
  split <;> split <;> rfl

end Call

theorem Exchange.Removal.calls_eq {ids : List String} {sent : List Exchange} {removed : Outcome}
    (h : Removal ids sent removed) : sent.map (·.call) = if ids = [] then [] else [.remove ids] := by
  cases h with
  | none => rfl
  | answered hne => rw [if_neg hne]; rfl
  | refused hne => rw [if_neg hne]; rfl

theorem Exchange.Writing.calls_eq {docs : List Document} {sent : List Exchange} {written : Outcome}
    (h : Writing docs sent written) : sent.map (·.call) = if docs = [] then [] else [.put docs] := by
  cases h with
  | none => rfl
  | answered hne => rw [if_neg hne]; rfl
  | refused hne => rw [if_neg hne]; rfl

/-! ## One use -/

namespace Batcher

inductive Use where
  | index (diffed : Diffed)
  | delete (id : String)
  | send (reason : FlushReason)

namespace Use

def run (policy : Policy) (use : Use) (work : Work) : Program (Progress (Option FlushReason)) :=
  match use with
  | index diffed => addUpdate policy diffed work
  | delete id => addDelete policy id work
  | send reason => flush policy reason work

def documents : Use → List Document
  | index diffed => diffed.indexable.toList
  | _ => []

def ids : Use → List String
  | delete id => [id]
  | _ => []

end Use

structure Slack (sizes : BatchSizes) (batcher : Batcher) : Prop where
  updates : batcher.updates.items.length < max 1 sizes.updates
  deletes : batcher.deletes.items.length < max 1 sizes.deletes

/-- What a use comes to: all that is gathered and comes in is kept, or all of it is sent. -/
inductive Moves (sizes : BatchSizes) (use : Use) (before : Batcher) : List Call → Batcher → Prop
  | kept {after} : after.updates.items = before.updates.items ++ use.documents →
      after.deletes.items = before.deletes.items ++ use.ids → after.Slack sizes → Moves sizes use before [] after
  | sent {after} : (before.updates.items ++ use.documents).length ≤ max 1 sizes.updates →
      (before.deletes.items ++ use.ids).length ≤ max 1 sizes.deletes →
      after.updates.items = [] → after.deletes.items = [] →
      Moves sizes use before
        (Call.ofFlush (before.deletes.items ++ use.ids) (before.updates.items ++ use.documents)) after

variable {sizes : BatchSizes} {policy : Policy} {use : Use} {batcher after : Batcher} {calls : List Call} {work : Work}
  {log : List Exchange}

theorem slack_of_items_eq_nil (hu : batcher.updates.items = []) (hd : batcher.deletes.items = []) :
    batcher.Slack sizes := by
  constructor
  · rw [hu]
    exact Nat.lt_of_lt_of_le Nat.zero_lt_one (Nat.le_max_left ..)
  · rw [hd]
    exact Nat.lt_of_lt_of_le Nat.zero_lt_one (Nat.le_max_left ..)

theorem Moves.slack (h : Moves sizes use batcher calls after) : after.Slack sizes := by
  cases h with
  | kept _ _ hs => exact hs
  | sent _ _ hu hd => exact slack_of_items_eq_nil hu hd

theorem Moves.documents (h : Moves sizes use batcher calls after) :
    (Call.documentBatches calls).flatten ++ after.updates.items = batcher.updates.items ++ use.documents := by
  cases h with
  | kept hu _ _ => exact hu
  | sent _ _ hu _ =>
    rw [Call.documentBatches_ofFlush, hu, List.append_nil]
    split
    · next hnil => exact hnil.symm
    · exact List.flatten_singleton ..

theorem Moves.ids (h : Moves sizes use batcher calls after) :
    (Call.removalBatches calls).flatten ++ after.deletes.items = batcher.deletes.items ++ use.ids := by
  cases h with
  | kept _ hd _ => exact hd
  | sent _ _ _ hd =>
    rw [Call.removalBatches_ofFlush, hd, List.append_nil]
    split
    · next hnil => exact hnil.symm
    · exact List.flatten_singleton ..

theorem Moves.ordered (h : Moves sizes use batcher calls after) : ∃ ids docs, calls = Call.ofFlush ids docs := by
  cases h with
  | kept => exact ⟨[], [], rfl⟩
  | sent => exact ⟨_, _, rfl⟩

theorem mem_ite_singleton {α : Type} {p q : List α} (h : q ∈ if p = [] then [] else [p]) : q = p ∧ 1 ≤ q.length := by
  split at h
  · cases h
  · next hne =>
    obtain rfl := List.mem_singleton.mp h
    exact ⟨rfl, List.length_pos_iff.mpr hne⟩

theorem Moves.length_documents (h : Moves sizes use batcher calls after) :
    ∀ docs ∈ Call.documentBatches calls, 1 ≤ docs.length ∧ docs.length ≤ max 1 sizes.updates := by
  cases h with
  | kept => exact fun _ hd => nomatch hd
  | sent hu _ _ _ =>
    rw [Call.documentBatches_ofFlush]
    intro docs hd
    obtain ⟨rfl, hpos⟩ := mem_ite_singleton hd
    exact ⟨hpos, hu⟩

theorem Moves.length_ids (h : Moves sizes use batcher calls after) :
    ∀ ids ∈ Call.removalBatches calls, 1 ≤ ids.length ∧ ids.length ≤ max 1 sizes.deletes := by
  cases h with
  | kept => exact fun _ hd => nomatch hd
  | sent _ hd _ _ =>
    rw [Call.removalBatches_ofFlush]
    intro ids hi
    obtain ⟨rfl, hpos⟩ := mem_ite_singleton hi
    exact ⟨hpos, hd⟩

theorem flush_sends {reason : FlushReason} (work : Work) : (flush policy reason work).Always free
    (fun p log' => ∃ sent, log' = log ++ sent ∧
      sent.map (·.call) = Call.ofFlush work.batcher.deletes.items work.batcher.updates.items ∧
      p.2.batcher.updates.items = [] ∧ p.2.batcher.deletes.items = []) log := by
  unfold flush
  dsimp only
  split
  · next hnil =>
    refine always_pure.mpr fun log' hd => ⟨[], ?_, ?_, hnil⟩
    · rw [List.append_nil]
      exact Eq.symm hd
    · rw [hnil.1, hnil.2]
      rfl
  · apply (Account.sendDeletes Exchange.records_free _).bind
    intro removed log₁ ⟨out, hout, hr⟩
    apply (Account.sendUpdates Exchange.records_free _).bind
    intro written log₂ ⟨into, hinto, hw⟩
    have hlog : log₂ = log ++ (out ++ into) := by
      rw [← List.append_assoc]
      exact hinto.trans (congrArg (· ++ into) hout)
    have hcalls : (out ++ into).map (·.call) =
        Call.ofFlush work.batcher.deletes.items work.batcher.updates.items := by
      rw [List.map_append, hr.calls_eq, hw.calls_eq]
      rfl
    refine always_record.mpr ?_
    split
    · exact always_pure.mpr fun log' hd => ⟨_, (Eq.symm hd).trans hlog, hcalls, rfl, rfl⟩
    · exact always_pure.mpr fun log' hd => ⟨_, (Eq.symm hd).trans hlog, hcalls, rfl, rfl⟩

theorem lt_of_not_isFull {α : Type} {batch : Batch α} {size : Nat} (h : ¬ batch.isFull size = true) :
    batch.items.length < max 1 size :=
  Nat.lt_of_not_le fun hle => h (decide_eq_true hle)

theorem length_push_le {α : Type} {batch : Batch α} {size : Nat} (h : batch.items.length < size) (item : α) :
    (batch.items ++ [item]).length ≤ size := by
  rw [List.length_append]
  exact h

def Use.Moved (sizes : BatchSizes) (use : Use) (before : Batcher) (log : List Exchange)
    (p : Progress (Option FlushReason)) (log' : List Exchange) : Prop :=
  ∃ sent, log' = log ++ sent ∧ Moves sizes use before (sent.map (·.call)) p.2.batcher

theorem moved_of_flush {reason : FlushReason} {gathered : Work}
    (hu : gathered.batcher.updates.items = batcher.updates.items ++ use.documents)
    (hd : gathered.batcher.deletes.items = batcher.deletes.items ++ use.ids)
    (hlu : gathered.batcher.updates.items.length ≤ max 1 policy.sizes.updates)
    (hld : gathered.batcher.deletes.items.length ≤ max 1 policy.sizes.deletes) :
    (flush policy reason gathered).Always free (use.Moved policy.sizes batcher log) log := by
  apply (flush_sends gathered).mono
  rintro p log' ⟨sent, hlog, hcalls, hnone⟩
  refine ⟨sent, hlog, ?_⟩
  rw [hu, hd] at hcalls
  rw [hcalls]
  exact .sent (hu ▸ hlu) (hd ▸ hld) hnone.1 hnone.2

theorem moved_of_pure {reason? : Option FlushReason} {gathered : Work}
    (hu : gathered.batcher.updates.items = batcher.updates.items ++ use.documents)
    (hd : gathered.batcher.deletes.items = batcher.deletes.items ++ use.ids)
    (hs : gathered.batcher.Slack policy.sizes) :
    (pure (.ok reason?, gathered) : Program (Progress (Option FlushReason))).Always free
      (use.Moved policy.sizes batcher log) log :=
  always_pure.mpr fun _ hd' => ⟨[], (Eq.symm hd').trans (List.append_nil _).symm, .kept hu hd hs⟩

theorem moved_of_run (hs : work.batcher.Slack policy.sizes) :
    (use.run policy work).Always free (use.Moved policy.sizes work.batcher log) log := by
  have hupdates := hs.updates
  have hdeletes := hs.deletes
  cases use with
  | index diffed =>
    have hdocs : (Use.index diffed).documents = diffed.indexable.toList := rfl
    dsimp only [Use.run, addUpdate]
    cases hx : diffed.indexable with
    | none =>
      rw [hx] at hdocs
      exact moved_of_pure (by rw [hdocs]; exact (List.append_nil _).symm) (List.append_nil _).symm hs
    | some doc =>
      rw [hx] at hdocs
      have hitems : (work.batcher.updates.push doc).items = work.batcher.updates.items ++ (Use.index diffed).documents := by
        rw [hdocs]
        rfl
      dsimp only
      split
      · exact moved_of_flush hitems (List.append_nil _).symm (length_push_le hupdates doc) (Nat.le_of_lt hdeletes)
      · next hfull => exact moved_of_pure hitems (List.append_nil _).symm ⟨lt_of_not_isFull hfull, hdeletes⟩
  | delete id =>
    dsimp only [Use.run, addDelete]
    split
    · exact moved_of_flush (List.append_nil _).symm rfl (Nat.le_of_lt hupdates) (length_push_le hdeletes id)
    · next hfull => exact moved_of_pure (List.append_nil _).symm rfl ⟨hupdates, lt_of_not_isFull hfull⟩
  | send reason =>
    exact moved_of_flush (List.append_nil _).symm (List.append_nil _).symm (Nat.le_of_lt hupdates)
      (Nat.le_of_lt hdeletes)

/-! ## One use after another -/

structure Turn where
  use : Use
  calls : List Exchange

/-- A batcher that was fresh and is used on, whatever its calls are answered and whatever it gave so far. -/
inductive Used (policy : Policy) (stats : Stats) : List Turn → Work → Prop
  | fresh : Used policy stats [] ⟨.empty, stats⟩
  | again {turns work use result after sent} : Used policy stats turns work →
      Ends free (use.run policy work) [] (result, after) sent → Used policy stats (turns ++ [⟨use, sent⟩]) after

def callsOf (turns : List Turn) : List Call :=
  turns.flatMap fun turn => turn.calls.map (·.call)

variable {stats : Stats} {turns : List Turn}

theorem callsOf_concat (turns : List Turn) (turn : Turn) :
    callsOf (turns ++ [turn]) = callsOf turns ++ turn.calls.map (·.call) := by
  simp [callsOf]

def useAll {σ : Type} (env : Surroundings σ) (policy : Policy) : List Use → σ → Work → List Turn × Work
  | [], _, work => ([], work)
  | use :: uses, s, work =>
    let ((_, after), t, calls) := (use.run policy work).run env.logging (s, [])
    let (turns, last) := useAll env policy uses t after
    (⟨use, calls⟩ :: turns, last)

theorem used_useAll {σ : Type} (env : Surroundings σ) : ∀ (uses : List Use) {turns : List Turn} {work : Work} (s : σ),
    Used policy stats turns work →
      Used policy stats (turns ++ (useAll env policy uses s work).1) (useAll env policy uses s work).2
  | [], turns, work, s, h => (List.append_nil turns).symm ▸ h
  | use :: uses, turns, work, s, h => by
    have hends := ends_logging env env.logging.token (use.run policy work) s []
    have hrest := used_useAll env uses ((use.run policy work).run env.logging (s, [])).2.1 (h.again hends)
    rw [List.append_assoc] at hrest
    exact hrest

/-- What came in was sent or is gathered, in order and once; batches have something in them and are not
too large; and each use made the calls of one flush at most. -/
structure Orderly (sizes : BatchSizes) (turns : List Turn) (batcher : Batcher) : Prop where
  documents : (Call.documentBatches (callsOf turns)).flatten ++ batcher.updates.items = turns.flatMap (·.use.documents)
  ids : (Call.removalBatches (callsOf turns)).flatten ++ batcher.deletes.items = turns.flatMap (·.use.ids)
  documentBatches : ∀ docs ∈ Call.documentBatches (callsOf turns), 1 ≤ docs.length ∧ docs.length ≤ max 1 sizes.updates
  removalBatches : ∀ ids ∈ Call.removalBatches (callsOf turns), 1 ≤ ids.length ∧ ids.length ≤ max 1 sizes.deletes
  slack : batcher.Slack sizes
  flushes : ∀ turn ∈ turns, ∃ ids docs, turn.calls.map (·.call) = Call.ofFlush ids docs

theorem Orderly.fresh (sizes : BatchSizes) : Orderly sizes [] .empty where
  documents := rfl
  ids := rfl
  documentBatches _ h := nomatch h
  removalBatches _ h := nomatch h
  slack := slack_of_items_eq_nil rfl rfl
  flushes _ h := nomatch h

theorem Orderly.again {turn : Turn} (h : Orderly sizes turns batcher)
    (hm : Moves sizes turn.use batcher (turn.calls.map (·.call)) after) : Orderly sizes (turns ++ [turn]) after where
  documents := by
    rw [callsOf_concat, Call.documentBatches_append, List.flatten_append, List.append_assoc, hm.documents,
      ← List.append_assoc, h.documents]
    simp
  ids := by
    rw [callsOf_concat, Call.removalBatches_append, List.flatten_append, List.append_assoc, hm.ids,
      ← List.append_assoc, h.ids]
    simp
  documentBatches := by
    rw [callsOf_concat, Call.documentBatches_append]
    exact List.forall_mem_append.mpr ⟨h.documentBatches, hm.length_documents⟩
  removalBatches := by
    rw [callsOf_concat, Call.removalBatches_append]
    exact List.forall_mem_append.mpr ⟨h.removalBatches, hm.length_ids⟩
  slack := hm.slack
  flushes := List.forall_mem_append.mpr ⟨h.flushes, List.forall_mem_singleton.mpr hm.ordered⟩

end Batcher

/-- However a batcher is used and whatever its calls are answered, it loses, repeats and reorders nothing. -/
theorem batches_in_order {policy : Policy} {stats : Stats} {turns : List Batcher.Turn} {work : Work}
    (h : Batcher.Used policy stats turns work) : Batcher.Orderly policy.sizes turns work.batcher := by
  induction h with
  | fresh => exact .fresh _
  | again _ hends ih =>
    obtain ⟨sent, rfl, hm⟩ := (Batcher.moved_of_run ih.slack).ends hends
    exact ih.again hm

/-- A batch size of zero acts as one, and a put that is refused as a whole ends its use with an error. -/
theorem batches_in_order_aborted :
    let new := fun id => Batcher.Use.index ⟨{ Document.blank with id := id }, .new⟩
    let out := Batcher.useAll (Collaborators.surroundings 1000).unwritable ⟨⟨0, 2⟩, false⟩
      [.delete "b", new "a", .delete "c", new "d", .send .endOfCycle, .delete "e"] (.fresh none) ⟨.empty, .start .delta 0⟩
    Batcher.Used ⟨⟨0, 2⟩, false⟩ (.start .delta 0) out.1 out.2 ∧ Batcher.Orderly ⟨0, 2⟩ out.1 out.2.batcher ∧
      Call.removalBatches (Batcher.callsOf out.1) = [["b"], ["c"]] ∧
      (Call.documentBatches (Batcher.callsOf out.1)).map (·.map (·.id)) = [["a"], ["d"]] ∧
      out.2.batcher.deletes.items = ["e"] ∧ out.2.stats.failed = 2 := by
  intro new out
  have hfresh : Batcher.Used ⟨⟨0, 2⟩, false⟩ (.start .delta 0) [] ⟨.empty, .start .delta 0⟩ := .fresh
  have hused := Batcher.used_useAll (Collaborators.surroundings 1000).unwritable
    [.delete "b", new "a", .delete "c", new "d", .send .endOfCycle, .delete "e"] (.fresh none) hfresh
  exact ⟨hused, batches_in_order hused, by decide +kernel, by decide +kernel, by decide +kernel, by decide +kernel⟩

end ContactsIndex
