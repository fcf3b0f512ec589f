import ContactsIndex.Document.Canonical
import Mathlib.Algebra.Group.Nat.Defs

/-!
# Framed fields

The canonical forms are sequences of framed fields. Such a sequence is read in one
way only, as long as the length of each content has room in its four bytes
(`framed_inj`).
-/

namespace ContactsIndex

structure Part where
  tag : UInt8
  content : List UInt8

def framed (parts : List Part) : List UInt8 :=
  parts.flatMap fun part => frame part.tag part.content

@[simp] theorem framed_nil : framed [] = [] := rfl

theorem framed_cons (part : Part) (parts : List Part) :
    framed (part :: parts) = frame part.tag part.content ++ framed parts := rfl

theorem framed_append (parts parts' : List Part) : framed (parts ++ parts') = framed parts ++ framed parts' :=
  List.flatMap_append

def tagged (tag : UInt8) (contents : List (List UInt8)) : List Part :=
  contents.map (⟨tag, ·⟩)

theorem framed_tagged (tag : UInt8) (contents : List (List UInt8)) :
    framed (tagged tag contents) = contents.flatMap (frame tag) := by
  rw [framed, tagged, List.flatMap_map]

theorem length_content_le {parts : List Part} {part : Part} (h : part ∈ parts) :
    part.content.length ≤ (framed parts).length := by
  induction parts with
  | nil => cases h
  | cons first parts ih =>
    rw [framed_cons, List.length_append]
    rcases List.mem_cons.mp h with rfl | h
    · simp only [frame, List.length_cons, List.length_append]
      omega
    · have := ih h
      omega

/-! ## Reading frames -/

/-- The lengths of the contents have room in their four bytes. -/
def Framable (parts : List Part) : Prop :=
  ∀ part ∈ parts, part.content.length < 2 ^ 32

@[simp] theorem framable_append {parts parts' : List Part} :
    Framable (parts ++ parts') ↔ Framable parts ∧ Framable parts' := by
  simp only [Framable, List.mem_append, or_imp, forall_and]

@[simp] theorem framable_tagged {tag : UInt8} {contents : List (List UInt8)} :
    Framable (tagged tag contents) ↔ ∀ content ∈ contents, content.length < 2 ^ 32 := by
  simp [Framable, tagged]

theorem framable_of_length {parts : List Part} (h : (framed parts).length < 2 ^ 32) : Framable parts :=
  fun _ hpart => Nat.lt_of_le_of_lt (length_content_le hpart) h

theorem frame_append_inj {tag tag' : UInt8} {content content' rest rest' : List UInt8} (h : content.length < 2 ^ 32)
    (h' : content'.length < 2 ^ 32) (heq : frame tag content ++ rest = frame tag' content' ++ rest') :
    tag = tag' ∧ content = content' ∧ rest = rest' := by
  simp only [frame, List.cons_append, List.append_assoc, List.cons.injEq] at heq
  obtain ⟨htag, heq⟩ := heq
  obtain ⟨hlength, heq⟩ := List.append_inj heq (by simp)
  have hspan : LittleEndian.span 4 = 2 ^ 32 := by decide
  rw [← hspan] at h h'
  obtain ⟨hcontent, hrest⟩ := List.append_inj heq (LittleEndian.encode_inj h h' hlength)
  exact ⟨htag, hcontent, hrest⟩

theorem framed_inj {parts parts' : List Part} (h : Framable parts) (h' : Framable parts')
    (heq : framed parts = framed parts') : parts = parts' := by
  induction parts generalizing parts' with
  | nil =>
    cases parts' with
    | nil => rfl
    | cons part' parts' => simp [framed_cons, frame] at heq
  | cons part parts ih =>
    cases parts' with
    | nil => simp [framed_cons, frame] at heq
    | cons part' parts' =>
      simp only [Framable, List.mem_cons, forall_eq_or_imp] at h h'
      obtain ⟨htag, hcontent, hrest⟩ := frame_append_inj h.1 h'.1 heq
      obtain rfl := ih h.2 h'.2 hrest
      obtain ⟨tag, content⟩ := part
      cases htag
      cases hcontent
      rfl

/-! ## The contents under a tag -/

def under (tag : UInt8) (parts : List Part) : List (List UInt8) :=
  (parts.filter (·.tag = tag)).map Part.content

@[simp] theorem under_append (tag : UInt8) (parts parts' : List Part) :
    under tag (parts ++ parts') = under tag parts ++ under tag parts' := by
  simp [under]

@[simp] theorem under_tagged (tag tag' : UInt8) (contents : List (List UInt8)) :
    under tag (tagged tag' contents) = if tag' = tag then contents else [] := by
  by_cases h : tag' = tag
  · rw [under, List.filter_eq_self.mpr (by simp [tagged, h]), if_pos h, tagged, List.map_map]
    exact List.map_id _
  · simp [under, tagged, List.filter_map, Function.comp_def, h]

end ContactsIndex
