import ContactsIndex.Proofs.Schema.Validity
import ContactsIndex.Store.Memory
import Mathlib.Logic.Relation

/-!
# Versions that are skipped

A schema upgrades to another when no document is lost. A type that is accepted in two
steps is accepted in one (`acceptsDocumentsOf_trans`): a property that was added on the
way is kept by the second step, and as it was not required it does not become so. So an
installation may skip any number of versions (`upgradesTo_of_versions`), and its store
keeps all documents where the steps would have kept them (`upgrades_compose`).
-/

namespace ContactsIndex

theorem Cardinality.widensTo_trans {c d e : Cardinality} (h : c.widensTo d = true) (h' : d.widensTo e = true) :
    c.widensTo e = true :=
  widensTo_iff.mpr fun n hn => widensTo_iff.mp h' n (widensTo_iff.mp h n hn)

theorem Cardinality.eq_required_of_widensTo {c : Cardinality} (h : c.widensTo .required = true) : c = .required := by
  cases c with
  | required => rfl
  | optional => cases h
  | repeated => cases h

namespace SchemaType

variable {old mid new : SchemaType}

theorem keeps_trans {prop : Property} (h : mid.keeps prop = true) (hmid : ∀ p ∈ mid.properties, new.keeps p = true) :
    new.keeps prop = true := by
  obtain ⟨prop', hprop', hkind, hwide⟩ := keeps_iff.mp h
  obtain ⟨hmem, hname⟩ := mem_of_property? hprop'
  obtain ⟨prop'', hprop'', hkind', hwide'⟩ := keeps_iff.mp (hmid prop' hmem)
  exact keeps_iff.mpr ⟨prop'', hname ▸ hprop'', hkind'.trans hkind, Cardinality.widensTo_trans hwide hwide'⟩

theorem required_of_keeps (hn : (new.properties.map (·.name)).Nodup) {was prop : Property} (hp : prop ∈ new.properties)
    (hname : was.name = prop.name) (h : new.keeps was = true) (hreq : prop.cardinality = .required) :
    was.cardinality = .required := by
  obtain ⟨now, hnow, -, hwide⟩ := keeps_iff.mp h
  rw [hname, property?, find?_name_of_mem hn hp] at hnow
  cases hnow
  rw [hreq] at hwide
  exact Cardinality.eq_required_of_widensTo hwide

theorem acceptsDocumentsOf_trans (hn : (new.properties.map (·.name)).Nodup) (h : mid.acceptsDocumentsOf old = true)
    (h' : new.acceptsDocumentsOf mid = true) : new.acceptsDocumentsOf old = true := by
  obtain ⟨hkept, hadded⟩ := acceptsDocumentsOf_iff.mp h
  obtain ⟨hkept', hadded'⟩ := acceptsDocumentsOf_iff.mp h'
  refine acceptsDocumentsOf_iff.mpr ⟨fun prop hp => keeps_trans (hkept prop hp) hkept', fun prop hp hreq => ?_⟩
  -- what `new` requires is in `mid`, is required there too, and so was in `old`
  obtain ⟨prop', hprop'⟩ := Option.isSome_iff_exists.mp (hadded' prop hp hreq)
  obtain ⟨hmem, hname⟩ := mem_of_property? hprop'
  have hreq' : prop'.cardinality = .required := required_of_keeps hn hp hname (hkept' prop' hmem) hreq
  exact hname ▸ hadded prop' hmem hreq'

end SchemaType

namespace Schema

def UpgradesTo (installed desired : Schema) : Prop :=
  compatibility (some installed) desired = .unchanged ∨ compatibility (some installed) desired = .compatible

instance (installed desired : Schema) : Decidable (installed.UpgradesTo desired) :=
  inferInstanceAs (Decidable (_ ∨ _))

variable {a b c : Schema}

theorem upgradesTo_iff : a.UpgradesTo b ↔ a = b ∨ ∀ type ∈ a.types, b.accepts type = true := by
  refine ⟨accepts_of_kept, fun h => ?_⟩
  by_cases hsame : a = b
  · exact .inl (by simp [compatibility, hsame])
  · have hnone : a.refusedTypes b = [] := by
      refine List.eq_nil_iff_forall_not_mem.mpr fun name hname => ?_
      obtain ⟨type, ht, hrefused, -⟩ := mem_refusedTypes.mp hname
      simp [h.resolve_left hsame type ht] at hrefused
    exact .inr (by simp [compatibility, hsame, hnone])

theorem accepts_trans (hc : c.Distinct) {type : SchemaType} (h : b.accepts type = true)
    (hbc : ∀ mid ∈ b.types, c.accepts mid = true) : c.accepts type = true := by
  obtain ⟨mid, hmid, hacc⟩ := accepts_iff.mp h
  obtain ⟨hmem, hname⟩ := mem_of_type? hmid
  obtain ⟨new, hnew, hacc'⟩ := accepts_iff.mp (hbc mid hmem)
  have hn := hc.properties new (mem_of_type? hnew).1
  exact accepts_iff.mpr ⟨new, hname ▸ hnew, SchemaType.acceptsDocumentsOf_trans hn hacc hacc'⟩

theorem UpgradesTo.trans (hc : c.Distinct) (hab : a.UpgradesTo b) (hbc : b.UpgradesTo c) : a.UpgradesTo c := by
  rcases upgradesTo_iff.mp hab with rfl | hab
  · exact hbc
  · rcases upgradesTo_iff.mp hbc with rfl | hbc
    · exact upgradesTo_iff.mpr (.inr hab)
    · exact upgradesTo_iff.mpr (.inr fun type ht => accepts_trans hc (hab type ht) hbc)

theorem upgradesTo_of_versions (h : Relation.ReflTransGen (fun old new => new.Distinct ∧ old.UpgradesTo new) a b) :
    a.UpgradesTo b := by
  induction h with
  | refl => exact upgradesTo_iff.mpr (.inl rfl)
  | tail _ hstep ih => exact ih.trans hstep.1 hstep.2

end Schema

theorem DocumentStore.setSchema_of_upgradesTo {store : DocumentStore} {installed desired : Schema}
    (h : store.schema = some installed) (hup : installed.UpgradesTo desired) (force : Bool) :
    store.setSchema desired force = (.ok [], store.installSchema desired) := by
  rcases hup with hup | hup <;> simp [setSchema, h, hup]

/-- Where each of two steps keeps all documents, so does the one step over both; and a store
with the first schema takes the last one, forced or not, with its documents as they are. -/
theorem Schema.upgrades_compose {a b c : Schema} (hc : c.Distinct)
    (hab : compatibility (some a) b = .unchanged ∨ compatibility (some a) b = .compatible)
    (hbc : compatibility (some b) c = .unchanged ∨ compatibility (some b) c = .compatible) :
    (compatibility (some a) c = .unchanged ∨ compatibility (some a) c = .compatible) ∧
      ∀ store : DocumentStore, store.schema = some a → ∀ force,
        store.setSchema c force = (.ok [], store.installSchema c) := by
  have hac : a.UpgradesTo c := UpgradesTo.trans hc hab hbc
  exact ⟨hac, fun store hs force => store.setSchema_of_upgradesTo hs hac force⟩

def Schema.withPronunciation : Schema :=
  { personCorpus with
    version := 2
    types := [
      .contactPoint,
      ⟨personTypeName, .searchable "pronunciation" .optional :: SchemaType.person.properties⟩] }

/-- From one e-mail address to many, and then to a new property. -/
theorem Schema.upgrades_compose_pronunciation :
    compatibility (some oneEmail) personCorpus = .compatible ∧
      compatibility (some personCorpus) withPronunciation = .compatible ∧
      compatibility (some oneEmail) withPronunciation = .compatible ∧
      ∀ store : DocumentStore, store.schema = some oneEmail → ∀ force,
        store.setSchema withPronunciation force = (.ok [], store.installSchema withPronunciation) := by
  have hc : withPronunciation.Distinct := by decide
  have hfirst : compatibility (some oneEmail) personCorpus = .compatible := by decide +kernel
  have hsecond : compatibility (some personCorpus) withPronunciation = .compatible := by decide +kernel
  obtain ⟨hboth, hstore⟩ := upgrades_compose hc (.inr hfirst) (.inr hsecond)
  exact ⟨hfirst, hsecond, hboth.resolve_left (by decide +kernel), hstore⟩

end ContactsIndex
