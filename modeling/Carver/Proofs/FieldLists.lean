import Carver.Proofs.Blocks
import Carver.Proofs.ExactLocation

/-!
# Where field lists end

A struct is located up to the first closing brace behind its head, whatever its fields are. The
scan for the end of a block counts the braces that open on the way. So the two agree on where a
struct ends if and only if no brace opens among its fields (`locateStruct_end_iff`). With such a
brace the block of the struct goes on behind the located end, or does not end at all: the struct is
located too short and never too long.
-/

namespace Carver

namespace Grammar

/-- A struct from `struct` to the brace that opens its fields. -/
inductive StructOpening (name : String) : Text → Prop
  | opening {gap s₁ generics s₂ : Text} : Gap gap → Space s₁ → Optional Generics generics →
      Space s₂ →
      StructOpening name ("struct".toList ++ gap ++ name.toList ++ s₁ ++ generics ++ s₂ ++ ['{'])

/-- A struct of this name up to the brace that opens its fields, behind the text `before`. -/
def StructHead (between : Text → Prop) (name : String) : Text → Text → Prop :=
  Item (StructFront between) (StructOpening name)

/-- A struct is a head, fields without a closing brace, and that brace. -/
theorem StructItem.exists_head {between : Text → Prop} {name : String} {before word : Text}
    (h : StructItem between name before word) :
    ∃ front fields, word = front ++ '{' :: (fields ++ ['}']) ∧
      StructHead between name before (front ++ ['{']) ∧ '}' ∉ fields := by
  obtain @⟨lead, _, hfront, hstart, hbody⟩ := h
  obtain @⟨gap, s₁, generics, s₂, fields, hgap, hs₁, hgenerics, hs₂, hfields⟩ := hbody
  have hopening : StructOpening name _ := .opening hgap hs₁ hgenerics hs₂
  refine ⟨lead ++ ("struct".toList ++ gap ++ name.toList ++ s₁ ++ generics ++ s₂), fields,
    by simp, ?_, hfields⟩
  rw [List.append_assoc]
  exact .item hfront hstart hopening

/-- The span holds a struct of this name, and the brace at `opening` ends its head. Its fields reach
from there to the first closing brace, which is the last character of the span. -/
inductive OpensFields (name : String) (text : Text) (span : Span) (opening : Nat) (fields : Text) :
    Prop
  | fields {before front after : Text} :
      text = before ++ (front ++ '{' :: (fields ++ '}' :: after)) →
      span = ⟨Text.size before, Text.size (before ++ (front ++ '{' :: (fields ++ ['}'])))⟩ →
      opening = Text.size (before ++ front) → StructHead Space name before (front ++ ['{']) →
      '}' ∉ fields → OpensFields name text span opening fields

end Grammar

open Grammar

/-- A located struct has its fields between two braces. -/
theorem exists_opensFields_of_locateStruct {text : Text} {name : String} {span : Span}
    (h : locateStruct text name = some span) :
    ∃ opening fields, OpensFields name text span opening fields := by
  obtain ⟨hit, hfind, rfl⟩ := Option.map_eq_some_iff.1 h
  obtain ⟨before, word, after, htext, hitem, hspan⟩ :=
    (Shape.describes_struct name).spans_of_find? hfind
  obtain ⟨front, fields, rfl, hhead, hfields⟩ := hitem.exists_head
  exact ⟨_, fields, .fields (by simpa using htext) hspan rfl hhead hfields⟩

/-! ## Counting through the fields -/

namespace Braces

/-- Through fields without a closing brace, every opening brace counts. -/
theorem balancedEnd_fields (before : Text) {fields : Text} (hfields : '}' ∉ fields)
    (after : Text) :
    balancedEnd (before ++ '{' :: (fields ++ '}' :: after)) (Text.size before)
      = (close (fields.count '{' + 1) ('}' :: after)).map fun (block, _) =>
        Text.size (before ++ '{' :: (fields ++ block)) := by
  have hopen : ∀ front, front <+: fields → front.count '}' < front.count '{' + 1 := by
    intro front hfront
    rw [List.count_eq_zero.2 fun hmem => hfields (hfront.mem hmem)]
    exact Nat.succ_pos _
  have hleft : fields.count '}' + (fields.count '{' + 1) = fields.count '{' + 1 := by
    rw [List.count_eq_zero.2 hfields, Nat.zero_add]
  rw [balancedEnd_opening, close_append hopen hleft, Option.map_map]
  rfl

/-- If only one block is open, a closing brace ends it; if there are more, the last of them ends
further right. -/
theorem close_closing {depth : Nat} {after block rest : Text}
    (h : close depth ('}' :: after) = some (block, rest)) :
    depth ≤ 1 ∧ block = ['}'] ∨ 1 < depth ∧ ∃ inner, inner ≠ [] ∧ block = '}' :: inner := by
  rcases close_cons_eq_some h with ⟨_, hdepth, rfl, _⟩ | ⟨hopen, inner, rfl, hinner⟩
  · exact .inl ⟨hdepth, rfl⟩
  · exact .inr ⟨hopen rfl, inner, ne_nil_of_close hinner, rfl⟩

/-- The block that the fields stand in ends with the first closing brace, if no brace opens among
them. -/
theorem balancedEnd_of_notMem (before : Text) {fields : Text} (hclosing : '}' ∉ fields)
    (hopening : '{' ∉ fields) (after : Text) :
    balancedEnd (before ++ '{' :: (fields ++ '}' :: after)) (Text.size before)
      = some (Text.size (before ++ '{' :: (fields ++ ['}']))) := by
  rw [balancedEnd_fields before hclosing, List.count_eq_zero.2 hopening]
  rfl

/-- If a brace opens among the fields, the block that they stand in ends behind the first closing
brace. -/
theorem lt_balancedEnd_of_mem {before fields after : Text} {stop : Nat} (hclosing : '}' ∉ fields)
    (hopening : '{' ∈ fields)
    (h : balancedEnd (before ++ '{' :: (fields ++ '}' :: after)) (Text.size before) = some stop) :
    Text.size (before ++ '{' :: (fields ++ ['}'])) < stop := by
  rw [balancedEnd_fields before hclosing, Option.map_eq_some_iff] at h
  obtain ⟨⟨block, rest⟩, hclose, rfl⟩ := h
  have hcount : 0 < fields.count '{' := List.count_pos_iff.2 hopening
  rcases close_closing hclose with ⟨hdepth, _⟩ | ⟨_, inner, hinner, rfl⟩
  · omega
  · have hpos := Text.size_pos_of_ne_nil hinner
    simp only [Text.size_append, Text.size]
    omega

end Braces

/-- Where a struct is located, the block that its head opens ends where the struct does if and only
if no brace opens among the fields. It never ends in front of that place. -/
theorem locateStruct_end_iff {text : Text} {name : String} {span : Span}
    (h : locateStruct text name = some span) :
    (∃ opening fields, OpensFields name text span opening fields) ∧
    ∀ opening fields, OpensFields name text span opening fields →
      (Braces.balancedEnd text opening = some span.stop ↔ '{' ∉ fields) ∧
      ∀ stop, Braces.balancedEnd text opening = some stop → span.stop ≤ stop := by
  refine ⟨exists_opensFields_of_locateStruct h, fun opening fields hfields => ?_⟩
  obtain @⟨before, front, after, rfl, rfl, rfl, _, hclosing⟩ := hfields
  simp only [← List.append_assoc before front]
  by_cases hinner : '{' ∈ fields
  · refine ⟨⟨fun hend => ?_, fun hnot => absurd hinner hnot⟩, fun stop hend => ?_⟩
    · exact absurd (Braces.lt_balancedEnd_of_mem hclosing hinner hend) (Nat.lt_irrefl _)
    · exact Nat.le_of_lt (Braces.lt_balancedEnd_of_mem hclosing hinner hend)
  · have hwhole := Braces.balancedEnd_of_notMem (before ++ front) hclosing hinner after
    refine ⟨⟨fun _ => hinner, fun _ => hwhole⟩, fun stop hend => ?_⟩
    rw [hwhole, Option.some.injEq] at hend
    exact Nat.le_of_eq hend

/-- A struct with braces in the documentation of a field. -/
def bracedField : Text :=
  "struct N \x7b\n    /// \x7b\x7d\n    a: u8,\n\x7d\n".toList

/-- It is located up to the braces in the documentation, and its block ends with its last line. -/
theorem locateStruct_end_iff_sample :
    locateStruct bracedField "N" = some ⟨0, 21⟩ ∧
    Braces.balancedEnd bracedField 9 = some 34 ∧
    (∃ opening fields, OpensFields "N" bracedField ⟨0, 21⟩ opening fields) ∧
    ∀ opening fields, OpensFields "N" bracedField ⟨0, 21⟩ opening fields →
      (Braces.balancedEnd bracedField opening = some 21 ↔ '{' ∉ fields) ∧
      ∀ stop, Braces.balancedEnd bracedField opening = some stop → 21 ≤ stop :=
  have h : locateStruct bracedField "N" = some ⟨0, 21⟩ := by decide +kernel
  ⟨h, by decide +kernel, locateStruct_end_iff h⟩

end Carver
