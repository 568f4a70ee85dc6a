import Carver.Proofs.ExactLocation
import Carver.Proofs.ImplBlocks
import Carver.Proofs.StructSource

/-!
# Exact extraction of a struct and its impl blocks

From a well-formed source the struct, wherever it stands, and all impl blocks are cut out as they
stand, and the gaps are left (`extractStruct_text`). The first keyword of structs is that of the
struct, and a match that begins above it would have to end in front of that keyword, or in front of
one in the fields; the second is possible only for the scope of a `pub` that is open above the
struct, which is why sources are asked to close it. Without the struct, the gaps on both sides of it
are one gap, and the impl blocks are taken where they begin (`carves_impls`).
-/

namespace Carver

open Grammar

/-! ## The struct -/

/-- What begins behind the keyword of a struct of the name. -/
inductive StructTail (name : String) : Text → Prop
  | tail {gap s₁ generics s₂ later : Text} : Gap gap → Space s₁ →
      Grammar.Optional Generics generics → Space s₂ →
      StructTail name (gap ++ name.toList ++ s₁ ++ generics ++ s₂ ++ '{' :: later)

theorem StructTail.append {name : String} {back : Text} (h : StructTail name back) (below : Text) :
    StructTail name (back ++ below) := by
  obtain @⟨gap, s₁, generics, s₂, later, hgap, hs₁, hgenerics, hs₂⟩ := h
  rw [List.append_assoc, List.cons_append]
  exact .tail hgap hs₁ hgenerics hs₂

/-- Behind the keyword there is a blank. -/
theorem StructTail.exists_blank {name : String} {back : Text} (h : StructTail name back) :
    ∃ c rest, back = c :: rest ∧ Text.isBlank c = true := by
  obtain @⟨gap, _, _, _, _, hgap, _, _, _⟩ := h
  obtain ⟨c, blanks, rfl⟩ := List.exists_cons_of_ne_nil hgap.1
  simp only [List.cons_append]
  exact ⟨c, _, rfl, hgap.2 c List.mem_cons_self⟩

/-- If a brace closes there before one opens, it closes in the generics. -/
theorem StructTail.exists_of_closing {name : String} (hname : Identifier.isUsable name = true)
    {inside below : Text} (hinside : '{' ∉ inside) (h : StructTail name (inside ++ '}' :: below)) :
    ∃ gap space rest, inside = gap ++ name.toList ++ space ++ '<' :: rest ∧
      Gap gap ∧ Space space ∧ '>' ∉ rest := by
  generalize hjoined : inside ++ '}' :: below = back at h
  obtain @⟨gap, s₁, generics, s₂, later, hgap, hs₁, hgenerics, hs₂⟩ := h
  have hblank : ∀ {blanks : Text}, Space blanks → '}' ∉ blanks :=
    fun hblanks hmem => absurd (hblanks _ hmem) (by decide)
  have hhead : '}' ∉ gap ++ name.toList ++ s₁ := by
    have hbrace : '}' ∉ name.toList := Identifier.not_mem_of_isUsable hname rfl
    simp [hblank hgap.2, hblank hs₁, hbrace]
  cases hgenerics with
  | absent =>
    have hopens : '}' ∉ gap ++ name.toList ++ s₁ ++ s₂ ++ ['{'] := by
      simpa [hblank hs₂] using hhead
    have hcut : (gap ++ name.toList ++ s₁ ++ s₂ ++ ['{']) ++ later = inside ++ '}' :: below := by
      rw [hjoined]
      simp
    obtain ⟨more, rfl, _⟩ := Text.skip_of_not_mem hopens hcut
    exact absurd (by simp) hinside
  | present hgenerics =>
    obtain @⟨inner, hinner⟩ := hgenerics
    have hbegins : '}' ∉ gap ++ name.toList ++ s₁ ++ ['<'] := by simpa using hhead
    have hcut : (gap ++ name.toList ++ s₁ ++ ['<']) ++ (inner ++ ('>' :: s₂ ++ '{' :: later))
        = inside ++ '}' :: below := by
      rw [hjoined]
      simp
    obtain ⟨rest, rfl, hrest⟩ := Text.skip_of_not_mem hbegins hcut
    refine ⟨gap, s₁, rest, by simp, hgap, hs₁, ?_⟩
    rcases List.append_eq_append_iff.1 hrest with ⟨mid, rfl, hmid⟩ | ⟨mid, rfl, _⟩
    -- behind generics that end before it a brace opens first
    · have hopens : '}' ∉ ('>' :: s₂) ++ ['{'] := by simp [hblank hs₂]
      have hcut : (('>' :: s₂) ++ ['{']) ++ later = mid ++ '}' :: below := by
        rw [← hmid]
        simp
      obtain ⟨more, rfl, _⟩ := Text.skip_of_not_mem hopens hcut
      exact absurd (by simp) hinside
    · exact fun hmem => hinner (List.mem_append_left _ hmem)

/-- A struct has its keyword where a word begins. -/
theorem exists_keyword_of_structItem {name : String} {before word : Text}
    (h : StructItem Space name before word) :
    ∃ lead visibility back, word = lead ++ visibility ++ (Text.structWord ++ back) ∧
      Leading lead ∧ Grammar.Optional (Visibility Space) visibility ∧
      AtWordStart (before ++ (lead ++ visibility)) ∧ StructTail name back := by
  obtain @⟨_, _, ⟨hlead, hvisibility⟩, hstart, hbody⟩ := h
  obtain @⟨gap, s₁, generics, s₂, fields, hgap, hs₁, hgenerics, hs₂, _⟩ := hbody
  have hbody : "struct".toList ++ gap ++ name.toList ++ s₁ ++ generics ++ s₂
        ++ '{' :: fields ++ ['}']
      = Text.structWord ++ (gap ++ name.toList ++ s₁ ++ generics ++ s₂
        ++ '{' :: (fields ++ ['}'])) := by
    simp [Text.structWord]
  exact ⟨_, _, _, by rw [hbody], hlead, hvisibility, hstart, .tail hgap hs₁ hgenerics hs₂⟩

/-- The front of a struct is passed by the lines and modifiers of a function. -/
theorem spells_modifiers {visibility : Text}
    (h : Grammar.Optional (Visibility Space) visibility) :
    (Pattern.all Shape.modifiers).Spells visibility := by
  have hvisibility : (Pattern.maybe Shape.visibility).Spells visibility :=
    (Shape.spells_maybe_iff (Shape.spells_visibilityWith_iff Shape.space) visibility).2 h
  have hword : (Pattern.all Shape.modifiers).Spells (visibility ++ ([] ++ ([] ++ ([] ++ [])))) :=
    Pattern.spells_cons hvisibility (Pattern.spells_cons (.inr rfl)
      (Pattern.spells_cons (.inr rfl) (Pattern.spells_cons (.inr rfl) rfl)))
  simpa using hword

namespace StructSource

section

variable {name : String} (hname : Identifier.isUsable name = true)
  {fields below upper front blanks back : Text} (hfront : ')' ∉ front) (hblanks : Gap blanks)
  (hstart : AtWordStart (upper ++ (front ++ ')' :: blanks)))
  (hbelow : ∀ upper front, AtWordStart (upper ++ front) →
    below ≠ front ++ Text.structWord ++ back)
  (h : Text.structWord ++ ' ' :: name.toList ++ ' ' :: '{' :: (fields ++ '}' :: below)
    = front ++ ')' :: (blanks ++ (Text.structWord ++ back)))

include hname hfront hblanks hstart hbelow h

/-- A closing parenthesis in front of a keyword, both behind the keyword of a struct, stands in the
fields of the struct, and the keyword with it, if there is no keyword below the struct. -/
theorem exists_fields_of_keyword :
    ∃ opening inside, ')' ∉ opening ∧
      fields = opening ++ ')' :: (blanks ++ Text.structWord ++ inside) ∧
      back = inside ++ '}' :: below := by
  have hhead : ')' ∉ Text.structWord ++ ' ' :: name.toList ++ [' ', '{'] := by
    have hparen : ')' ∉ name.toList := Identifier.not_mem_of_isUsable hname rfl
    simpa [Text.structWord] using hparen
  have hcut : (Text.structWord ++ ' ' :: name.toList ++ [' ', '{']) ++ (fields ++ '}' :: below)
      = front ++ ')' :: (blanks ++ (Text.structWord ++ back)) := by
    rw [← h]
    simp
  obtain ⟨opening, rfl, hinside⟩ := Text.skip_of_not_mem hhead hcut
  have hopening : ')' ∉ opening := fun hmem => hfront (List.mem_append_right _ hmem)
  rcases List.append_eq_append_iff.1 hinside with ⟨mid, rfl, hmid⟩ | ⟨mid, rfl, hmid⟩
  -- the parenthesis would lie below the struct, and the keyword with it
  · rcases mid with _ | ⟨z, mid⟩
    · exact absurd (List.cons.inj hmid).1 (by decide)
    · obtain ⟨rfl, rfl⟩ := List.cons.inj hmid
      refine absurd ?_ (hbelow (upper ++ (Text.structWord ++ ' ' :: name.toList ++ [' ', '{'])
        ++ (fields ++ ['}'])) (mid ++ ')' :: blanks) ?_)
      · simp
      · simpa using hstart
  · have hbrace : '}' ∉ ')' :: (blanks ++ Text.structWord) := by
      have hblank : '}' ∉ blanks := fun hmem => absurd (hblanks.2 _ hmem) (by decide)
      simpa [Text.structWord] using hblank
    have hkeyword : (')' :: (blanks ++ Text.structWord)) ++ back = mid ++ '}' :: below := by
      rw [← hmid]
      simp
    obtain ⟨inside, rfl, hback⟩ := Text.skip_of_not_mem hbrace hkeyword
    exact ⟨opening, inside, hopening, by simp, hback⟩

/-- Then what stands in the fields behind the parenthesis reads as a struct with generics. -/
theorem isExposed_of_keyword (isPublic : Bool) (hfields : '{' ∉ fields)
    (htail : StructTail name back) :
    (StructPart.definition isPublic fields).isExposed name = true := by
  obtain ⟨opening, inside, hopening, rfl, rfl⟩ :=
    exists_fields_of_keyword hname hfront hblanks hstart hbelow h
  have hinside : '{' ∉ inside := fun hmem => hfields (by simp [hmem])
  obtain ⟨gap, space, rest, rfl, hgap, hspace, hrest⟩ := htail.exists_of_closing hname hinside
  have hword : (Pattern.all (Shape.structBegun name)).Spells (blanks ++ ("struct".toList
      ++ (gap ++ (name.toList ++ (space ++ (['<'] ++ (rest ++ []))))))) :=
    Pattern.spells_cons (Shape.spells_gap_iff.2 hblanks)
      (Pattern.spells_cons (Pattern.spells_literal.2 rfl)
        (Pattern.spells_cons (Shape.spells_gap_iff.2 hgap)
          (Pattern.spells_cons (Pattern.spells_literal.2 rfl)
            (Pattern.spells_cons (Shape.spells_space_iff.2 hspace)
              (Pattern.spells_cons (Pattern.spells_char.2 rfl)
                (Pattern.spells_cons (Shape.spells_upTo hrest) rfl))))))
  have hplain : (Pattern.all (Shape.structBegun name)).isPlain = true := by
    rw [Pattern.isPlain_all, Shape.structBegun, List.all_cons, List.all_cons, List.all_cons,
      List.all_cons, Pattern.isPlain_literal, Pattern.isPlain_literal]
    rfl
  have htakes := (Pattern.takes_iff_spells hplain).2 hword
  rw [StructPart.isExposed, Text.behindParen?_append hopening, Option.any_some]
  simpa [Text.structWord] using htakes

end

/-- A front that ends in front of the keyword of the struct does not begin above the struct. -/
theorem eq_nil_of_structFront {above v lead visibility : Text} {isPublic : Bool}
    (hlead : Leading lead) (hvisibility : Grammar.Optional (Visibility Space) visibility)
    (hv : v <:+ above) (heq : lead ++ visibility = v ++ StructPart.visibility isPublic)
    (hparagraph : above = [] ∨ ['\n', '\n'] <:+ above) (hends : above.endsItem = true) :
    v = [] :=
  -- as if the struct were a function without lines, the front of which is the same
  @eq_nil_of_front ⟨[], [], isPublic, "", [], none, []⟩ above v lead visibility
    ((Shape.spells_leading_iff lead).2 hlead) (spells_modifiers hvisibility) hv heq hparagraph hends
    fun hexposed => absurd hexposed (by cases isPublic <;> decide)

/-- A front that begins above a struct and ends behind the first character of its keyword is the
scope of a `pub`. -/
theorem exists_scope_of_front {above v lead visibility front : Text} {isPublic : Bool}
    (hlead : Leading lead) (hvisibility : Grammar.Optional (Visibility Space) visibility)
    (hv : v <:+ above) (hne : v ≠ [])
    (heq : lead ++ visibility = v ++ (StructPart.visibility isPublic ++ 's' :: front))
    (hparagraph : above = [] ∨ ['\n', '\n'] <:+ above) :
    ∃ v' space inner mid blanks, v' <:+ above ∧ v' ≠ [] ∧ Space space ∧ ')' ∉ inner ∧ Gap blanks ∧
      's' ∉ blanks ∧ ')' ∉ mid ∧ 's' :: front = mid ++ ')' :: blanks ∧
      v' ++ (StructPart.visibility isPublic ++ 's' :: front)
        = ['p', 'u', 'b'] ++ (space ++ '(' :: inner ++ ')' :: blanks) := by
  have hlonger := not_prefix_leading ((Shape.spells_leading_iff lead).2 hlead) hv hne hparagraph
  obtain ⟨v', rfl, hv'⟩ : ∃ v', v = lead ++ v' ∧
      visibility = v' ++ (StructPart.visibility isPublic ++ 's' :: front) := by
    rcases List.append_eq_append_iff.1 heq with ⟨v', rfl, h⟩ | ⟨mid, rfl, _⟩
    · exact ⟨v', rfl, h⟩
    · exact absurd (List.prefix_append v mid) hlonger
  have hne' : v' ≠ [] := by
    rintro rfl
    rw [List.append_nil] at hlonger
    exact hlonger (List.prefix_refl _)
  have hmem : 's' ∈ visibility := by simp [hv']
  cases hvisibility with
  | absent => cases hmem
  | present hvisibility =>
    rcases hvisibility with @⟨gap, hgap⟩ | @⟨space, inner, gap, hspace, hinner, hgap⟩
    · have hmark : 's' ∉ gap := fun h => absurd (hgap.2 _ h) (by decide)
      exact absurd hmem (by simpa using hmark)
    · have hmark : 's' ∉ gap := fun h => absurd (hgap.2 _ h) (by decide)
      have hscope : v' ++ (StructPart.visibility isPublic ++ 's' :: front)
          = ['p', 'u', 'b'] ++ (space ++ '(' :: inner ++ ')' :: gap) := by
        rw [← hv']
        simp
      have hjoined : (v' ++ StructPart.visibility isPublic) ++ 's' :: front
          = ['p', 'u', 'b'] ++ (space ++ '(' :: inner ++ ')' :: gap) := by
        rw [List.append_assoc, hscope]
      obtain ⟨mid, hmid, hfront⟩ :=
        exists_of_scope List.mem_cons_self hspace hinner (by simpa using hmark) hjoined
      exact ⟨v', space, inner, mid, gap, (List.suffix_append _ _).trans hv, hne', hspace, hinner,
        hgap, hmark, hmid, hfront, hscope⟩

/-- Behind a paragraph, and `pub` if there is one, a word may begin. -/
theorem atWordStart_visibility {above : Text}
    (hparagraph : above = [] ∨ ['\n', '\n'] <:+ above) (isPublic : Bool) :
    AtWordStart (above ++ StructPart.visibility isPublic) := by
  cases isPublic with
  | true =>
    rw [AtWordStart, List.getLast?_append]
    rfl
  | false =>
    rw [AtWordStart, StructPart.visibility, if_neg (by simp), List.append_nil]
    rcases hparagraph with rfl | ⟨front, rfl⟩
    · rfl
    · rw [List.getLast?_append]
      rfl

/-- The text of a struct is a struct of the grammar. -/
theorem structItem_text {name : String} {above fields : Text} {isPublic : Bool}
    (hparagraph : above = [] ∨ ['\n', '\n'] <:+ above) (hfields : '}' ∉ fields) :
    StructItem Space name above (StructPart.text name (.definition isPublic fields)) := by
  have hblank : Space [' '] := List.forall_mem_singleton.2 rfl
  have hempty : Space [] := fun _ hmem => absurd hmem List.not_mem_nil
  have hlead : Leading [] := .lines .none .none fun _ hmem => absurd hmem List.not_mem_nil
  have hvisibility : Grammar.Optional (Visibility Space) (StructPart.visibility isPublic) := by
    cases isPublic with
    | false => exact .absent
    | true => exact .present (.plain ⟨List.cons_ne_nil _ _, hblank⟩)
  have hbody : StructBody name _ :=
    .body ⟨List.cons_ne_nil _ _, hblank⟩ hblank .absent hempty hfields
  have htext : "struct".toList ++ [' '] ++ name.toList ++ [' '] ++ [] ++ []
        ++ '{' :: fields ++ ['}']
      = Text.structWord ++ ' ' :: name.toList ++ ' ' :: '{' :: fields ++ ['}'] := by
    simp [Text.structWord]
  rw [htext] at hbody
  exact .item (.front hlead hvisibility) (atWordStart_visibility hparagraph isPublic) hbody

variable {source : StructSource} {before after : List (StructPart × Text)} {gap : Text}
  {isPublic : Bool} {fields : Text}

theorem text_eq {block : StructPart} (hrest : source.rest = before ++ (block, gap) :: after) :
    source.text = source.above before
      ++ (block.text source.name ++ (gap ++ after.flatMap (part source.name))) := by
  rw [text, above, hrest, List.flatMap_append, List.flatMap_cons, List.append_assoc, part,
    List.append_assoc]

/-- Above a struct in whose fields the scope of a `pub` could close, every such scope is closed. -/
theorem closesPub_above {block : StructPart} (hguarded : source.Guarded)
    (hrest : source.rest = before ++ (block, gap) :: after)
    (hexposed : block.isExposed source.name = true) : (source.above before).ClosesPub := by
  have hlength : before.length < source.rest.length := by simp [hrest]
  have hclosed := hguarded ⟨before.length, hlength⟩ (by simpa [hrest] using hexposed)
  simpa only [hrest, List.take_left] using hclosed

section

variable (h : source.WellFormed)
  (hrest : source.rest = before ++ (.definition isPublic fields, gap) :: after)
  (himpls : ∀ pair ∈ before ++ after, pair.1.isDefinition = false)

include h hrest himpls

/-- The keyword of a match lies behind what stands above the struct, and behind its `pub`. -/
theorem exists_front_of_structItem {u word w : Text}
    (hitem : StructItem Space source.name u word) (htext : source.text = u ++ word ++ w) :
    ∃ lead visibility front back, Leading lead ∧
      Grammar.Optional (Visibility Space) visibility ∧ StructTail source.name back ∧
      u ++ (lead ++ visibility)
        = source.above before ++ (StructPart.visibility isPublic ++ front) ∧
      AtWordStart (source.above before ++ (StructPart.visibility isPublic ++ front)) ∧
      Text.structWord ++ ' ' :: source.name.toList ++ ' ' :: '{' ::
          (fields ++ '}' :: (gap ++ after.flatMap (part source.name)))
        = front ++ Text.structWord ++ back := by
  obtain ⟨lead, visibility, back, rfl, hlead, hvisibility, hstart, htail⟩ :=
    exists_keyword_of_structItem hitem
  replace htail := htail.append w
  obtain ⟨c, rest, hback, hc⟩ := htail.exists_blank
  have hkeyword : source.above before ++ (StructPart.visibility isPublic
        ++ (Text.structWord ++ ' ' :: source.name.toList ++ ' ' :: '{' ::
          (fields ++ '}' :: (gap ++ after.flatMap (part source.name)))))
      = (u ++ (lead ++ visibility)) ++ Text.structWord ++ c :: rest := by
    have hjoined := (text_eq hrest).symm.trans htext
    rw [← hback]
    simpa [StructPart.text] using hjoined
  have hpassed := passed_above h hrest (List.forall_mem_append.1 himpls).1
  obtain ⟨front, hfront, hbehind⟩ :=
    hpassed [] (u ++ (lead ++ visibility)) _ _ c hc hstart hkeyword
  rw [hfront] at hstart
  obtain ⟨front, rfl, hlater⟩ :=
    StructPart.passed_visibility isPublic _ front _ _ c hc hstart hbehind
  rw [← hback] at hlater
  exact ⟨lead, visibility, front, back ++ w, hlead, hvisibility, htail, hfront, hstart, hlater⟩

variable (hguarded : source.Guarded)

include hguarded

/-- No struct of the name begins above the struct. -/
theorem not_structItem_above {u v word w : Text} (habove : source.above before = u ++ v)
    (hv : v ≠ []) (hitem : StructItem Space source.name u word) :
    source.text ≠ u ++ word ++ w := by
  intro htext
  obtain ⟨lead, visibility, front, back, hlead, hvisibility, htail, hfront, hstart, hbehind⟩ :=
    exists_front_of_structItem h hrest himpls hitem htext
  have hsuffix : v <:+ source.above before := ⟨u, habove.symm⟩
  have hparagraph := paragraph_above h hrest
  have hends := endsItem_above h hrest
  have heq : lead ++ visibility = v ++ (StructPart.visibility isPublic ++ front) := by
    rw [habove, List.append_assoc] at hfront
    exact List.append_cancel_left hfront
  rcases front with _ | ⟨z, front⟩
  -- the keyword is that of the struct
  · rw [List.append_nil] at heq
    exact hv (eq_nil_of_structFront hlead hvisibility hsuffix heq hparagraph hends)
  -- the keyword lies behind that of the struct
  · obtain rfl : 's' = z := (List.cons.inj hbehind).1
    obtain ⟨v', space, inner, mid, blanks, hsuffix', hne, hspace, hinner, hblanks, hmark, hopen,
      hmid, hscope⟩ := exists_scope_of_front hlead hvisibility hsuffix hv heq hparagraph
    rw [hmid] at hstart hbehind
    rw [← List.append_assoc] at hstart
    have hinside : Text.structWord ++ ' ' :: source.name.toList ++ ' ' :: '{' ::
          (fields ++ '}' :: (gap ++ after.flatMap (part source.name)))
        = mid ++ ')' :: (blanks ++ (Text.structWord ++ back)) := by
      rw [hbehind]
      simp
    obtain ⟨c, rest, rfl, hc⟩ := htail.exists_blank
    have hbelow := fun upper front => @not_keyword_below _ before after _ gap h hrest
      (List.forall_mem_append.1 himpls).2 front rest upper c hc
    have hfields := (h.parts (.definition isPublic fields, gap) (by simp [hrest])).1
    have hexposed :=
      isExposed_of_keyword h.name hopen hblanks hstart hbelow hinside isPublic hfields htail
    have hmem : 's' ∈ StructPart.visibility isPublic ++ 's' :: front := by simp
    exact not_scope_of_closesPub hsuffix' hends (closesPub_above hguarded hrest hexposed) hne hmem
      hspace hinner hmark hscope

/-- The struct is found where it begins. -/
theorem locateStruct_of_definition :
    locateStruct source.text source.name = some ⟨Text.size (source.above before),
      Text.size (source.above before ++ StructPart.text source.name
        (.definition isPublic fields))⟩ := by
  have htext := text_eq hrest
  refine ((Shape.describes_struct source.name).span_eq_some_iff
    (Shape.delimited_struct source.name) _).2 ⟨?_, ?_⟩
  · refine ⟨source.above before, _, gap ++ after.flatMap (part source.name), ?_, ?_, rfl⟩
    · rw [htext, List.append_assoc]
    · exact structItem_text (paragraph_above h hrest)
        (h.parts (.definition isPublic fields, gap) (by simp [hrest])).2
  · rintro _ ⟨u, word, w, hsplit, hitem, rfl⟩
    rw [hsplit, List.append_assoc] at htext
    rcases List.append_eq_append_iff.1 htext with ⟨v, habove, _⟩ | ⟨v, hu, _⟩
    · by_cases hv : v = []
      · rw [habove, hv, List.append_nil]
      · exact absurd hsplit (not_structItem_above h hrest himpls hguarded habove hv hitem)
    · rw [hu]
      simp [Text.size_append]

end

/-- Without a struct none is found. -/
theorem locateStruct_of_impls (h : source.WellFormed)
    (himpls : ∀ pair ∈ source.rest, pair.1.isDefinition = false) :
    locateStruct source.text source.name = none := by
  rw [locateStruct, Option.map_eq_none_iff,
    (Shape.describes_struct source.name).find?_eq_none_iff_not_spans]
  rintro _ ⟨u, word, w, hsplit, hitem, _⟩
  obtain ⟨lead, visibility, back, rfl, _, _, hstart, htail⟩ := exists_keyword_of_structItem hitem
  obtain ⟨c, back, rfl, hc⟩ := htail.exists_blank
  have hstart' : AtWordStart ([] ++ (u ++ (lead ++ visibility))) := hstart
  have hkeyword : source.head ++ source.rest.flatMap (part source.name)
      = (u ++ (lead ++ visibility)) ++ Text.structWord ++ c :: (back ++ w) := by
    rw [← text, hsplit]
    simp
  have hlacks : ∀ gap ∈ source.head :: source.rest.map (·.2), gap.Lacks Text.structWord :=
    fun gap hgap => (h.lacks gap hgap).1
  exact not_keyword_of_impls h.name (fun pair hpair => ⟨himpls pair hpair, h.parts pair hpair⟩)
    hlacks (fun _ => h.first) h.between hc hstart' hkeyword

end StructSource

/-! ## The impl blocks -/

namespace StructSource

/-- The head of an impl block is lines and then its keyword. -/
theorem exists_keyword_of_implHead {name : String} {before head : Text}
    (h : ImplHead name before head) :
    ∃ lines back, head = lines ++ (Text.implWord ++ back) ∧ Shape.leading.Spells lines := by
  obtain @⟨_, _, hfront, _, hword⟩ := h
  obtain ⟨lines, _, rfl, hlines, rfl⟩ := Pattern.spells_all_cons.1 hfront
  obtain ⟨_, back, rfl, hliteral, _⟩ := Pattern.spells_all_cons.1 hword
  refine ⟨lines, back, ?_, hlines⟩
  rw [Pattern.spells_literal.1 hliteral, List.append_nil]
  rfl

/-- In a gap that lacks the keyword of impl blocks, and ends a paragraph if something stands behind
it, no impl block begins. -/
theorem not_implBlock_of_gap {name : String} {gap v rest before block after : Text}
    (hlacks : gap.Lacks Text.implWord) (hend : rest = [] ∨ ['\n', '\n'] <:+ gap)
    (hv : v <:+ gap) (hne : v ≠ []) (heq : v ++ rest = block ++ after) :
    ¬ ImplBlock name before block after := by
  rintro @⟨_, inner, _, hhead, _⟩
  obtain ⟨lines, back, rfl, hlines⟩ := exists_keyword_of_implHead hhead
  have hcut : v ++ rest = lines ++ Text.implWord ++ (back ++ inner ++ after) := by
    rw [heq]
    simp
  have hlacks' : v.Lacks Text.implWord := fun h => hlacks (h.trans hv.isInfix)
  rcases hend with rfl | hend
  · rw [List.append_nil] at hcut
    exact hlacks' ⟨lines, _, hcut.symm⟩
  · have hlast : v.getLast? = some '\n' := by
      obtain ⟨u, hu⟩ := hv
      obtain ⟨front, hfront⟩ := hend
      rw [← List.getLast?_append_of_ne_nil u hne, hu, ← hfront, List.getLast?_append]
      rfl
    obtain ⟨front, rfl, _⟩ := hlacks'.skip (by rw [hlast]; simp [Text.implWord]) hcut
    exact not_prefix_leading hlines hv hne (.inr hend) (List.prefix_append v front)

/-- Gaps are passed on the way from block to block. -/
theorem carves_gap {name : String} {gap before rest : Text} {pieces : List Text} {left : Text}
    (hlacks : gap.Lacks Text.implWord)
    (hend : rest = [] ∨ gap = [] ∨ ['\n', '\n'] <:+ gap)
    (h : Carves name (before ++ gap) rest pieces left) :
    Carves name before (gap ++ rest) pieces (gap ++ left) := by
  have hnone : ∀ v, v <:+ gap → v ≠ [] → ∀ before block after, v ++ rest = block ++ after →
      ¬ ImplBlock name before block after := by
    intro v hv hne before block after heq
    refine not_implBlock_of_gap hlacks (hend.imp_right fun hgap => hgap.resolve_left ?_) hv hne heq
    rintro rfl
    exact hne (List.suffix_nil.1 hv)
  clear hlacks hend
  induction gap generalizing before with
  | nil => rwa [List.append_nil] at h
  | cons c gap ih =>
    refine .skip (hnone _ (List.suffix_refl _) (List.cons_ne_nil _ _) before) (ih ?_ ?_)
    · rwa [List.append_assoc]
    · exact fun v hv => hnone v (hv.trans (List.suffix_cons _ _))

/-- The body of an impl block ends with its first line that begins with a closing brace. -/
theorem splitClosing?_append {body rest : Text} (hbody : body.Lacks ['\n', '}'])
    (hrest : Text.endsLine rest = true) :
    Text.splitClosing? (body ++ '\n' :: '}' :: rest) = some (body ++ ['\n', '}'], rest) := by
  induction body with
  | nil =>
    rw [List.nil_append, Text.splitClosing?,
      if_pos (Text.closesHere_iff.2 ⟨rest, rfl, hrest⟩)]
    rfl
  | cons c body ih =>
    have hbody' : Text.Lacks body ['\n', '}'] :=
      fun h => hbody (h.trans (List.suffix_cons _ _).isInfix)
    have hnot : ¬ Text.closesHere (c :: (body ++ '\n' :: '}' :: rest)) = true := by
      intro hcloses
      obtain ⟨later, hlater, _⟩ := Text.closesHere_iff.1 hcloses
      cases body with
      | nil => exact absurd (List.cons.inj (List.cons.inj hlater).2).1 (by decide)
      | cons d body =>
        simp only [List.cons_append, List.cons.injEq] at hlater
        obtain ⟨rfl, rfl, _⟩ := hlater
        exact hbody ⟨[], body, rfl⟩
    rw [List.cons_append, Text.splitClosing?, if_neg hnot, ih hbody']
    rfl

/-- The text of an impl block is a block where a word may begin, if its last line ends. -/
theorem implBlock_text {name : String} {before body rest : Text} (hbefore : AtWordStart before)
    (hbody : body.Lacks ['\n', '}']) (hrest : Text.endsLine rest = true) :
    ImplBlock name before (StructPart.text name (.impl body)) rest := by
  have hhead : ImplHead name before (Text.implWord ++ ' ' :: name.toList ++ [' ', '{']) := by
    have hempty : (Pattern.all [Shape.leading]).Spells [] :=
      Pattern.spells_cons ((Shape.spells_leading_iff []).2
        (.lines .none .none fun _ hmem => absurd hmem List.not_mem_nil)) rfl
    have hword : (Pattern.all (Shape.implHead name)).Spells
        ("impl".toList ++ ([] ++ ([' '] ++ (name.toList ++ ([] ++ ([' '] ++ (['{'] ++ []))))))) :=
      Pattern.spells_cons (Pattern.spells_literal.2 rfl) (Pattern.spells_cons (.inr rfl)
        (Pattern.spells_cons (Shape.spells_gap.2 ⟨List.cons_ne_nil _ _, Shape.spells_space_one⟩)
          (Pattern.spells_cons (Pattern.spells_literal.2 rfl) (Pattern.spells_cons (.inr rfl)
            (Pattern.spells_cons Shape.spells_space_one
              (Pattern.spells_cons (Pattern.spells_char.2 rfl) rfl))))))
    have hstart : AtWordStart (before ++ []) := by rwa [List.append_nil]
    have hitem := Item.item hempty hstart hword
    simpa [Text.implWord, ImplHead] using hitem
  have hclosing : Text.splitClosing? ((body ++ ['\n', '}']) ++ rest)
      = some (body ++ ['\n', '}'], rest) := by
    have hsplit := splitClosing?_append hbody hrest
    simpa using hsplit
  have hblock := ImplBlock.block hhead hclosing
  simpa [StructPart.text] using hblock

/-- Behind a gap that is not empty, or at the beginning, a word may begin. -/
theorem atWordStart_gap {before gap : Text}
    (hgap : gap = [] ∧ before = [] ∨ ['\n', '\n'] <:+ gap) : AtWordStart (before ++ gap) := by
  rcases hgap with ⟨rfl, rfl⟩ | ⟨front, rfl⟩
  · rfl
  · rw [← List.append_assoc, AtWordStart, List.getLast?_append]
    rfl

/-- A gap that ends a paragraph makes no word together with the gap behind it. -/
theorem lacks_gap_append {gap below : Text} (hgap : gap = [] ∨ ['\n', '\n'] <:+ gap)
    (hlacks : gap.Lacks Text.implWord) (hbelow : below.Lacks Text.implWord) :
    (gap ++ below).Lacks Text.implWord := by
  rcases hgap with rfl | ⟨front, rfl⟩
  · exact hbelow
  · have hfront : Text.Lacks (front ++ ['\n']) Text.implWord := fun h =>
      hlacks (h.trans ⟨[], ['\n'], by simp⟩)
    have hseam := Text.lacks_append_cons (by decide : '\n' ∉ Text.implWord) hfront hbelow
    simpa using hseam

/-- A block ends its line in front of a gap that is empty at the end of the source alone. -/
theorem endsLine_gap {name : String} {below : Text} {pairs : List (StructPart × Text)}
    (hbelow : below.head?.all (· == '\n') = true)
    (hseparates : pairs ≠ [] → ['\n', '\n'] <:+ below) :
    Text.endsLine (below ++ pairs.flatMap (partLeft name)) = true := by
  cases below with
  | nil =>
    have hpairs : pairs = [] := by
      by_contra hne
      exact absurd (hseparates hne) (by decide)
    rw [hpairs]
    rfl
  | cons c below =>
    have hc : (c == '\n') = true := hbelow
    simp [Text.endsLine, hc]

/-- From a gap on, the impl blocks are taken and the gaps are left. Where the struct was, the gaps
on both sides of it are one gap. -/
theorem carves_impls {name : String} {before gap : Text} {pairs : List (StructPart × Text)}
    (hparts : ∀ pair ∈ pairs, pair.1.WellFormed)
    (hlacks : ∀ g ∈ gap :: pairs.map (·.2), g.Lacks Text.implWord)
    (hgap : pairs ≠ [] → gap = [] ∧ before = [] ∨ ['\n', '\n'] <:+ gap)
    (hbetween : ∀ g ∈ (pairs.map (·.2)).dropLast, g.Separates)
    (hbelow : ∀ pair ∈ pairs, pair.1.isDefinition = false → pair.2.head?.all (· == '\n') = true) :
    Carves name before (gap ++ pairs.flatMap (partLeft name)) (implTexts name pairs)
      (gap ++ (pairs.map (·.2)).flatten) := by
  induction pairs generalizing before gap with
  | nil => exact carves_gap (hlacks gap List.mem_cons_self) (.inl rfl) .done
  | cons pair pairs ih =>
    obtain ⟨block, below⟩ := pair
    specialize hgap (List.cons_ne_nil _ _)
    rw [List.forall_mem_cons] at hparts hbelow
    rw [List.map_cons, List.forall_mem_cons, List.forall_mem_cons] at hlacks
    obtain ⟨hseparates, hlater⟩ := forall_dropLast_cons hbetween
    rw [List.map_eq_nil_iff.ne] at hseparates
    rw [List.flatMap_cons, List.map_cons, List.flatten_cons]
    cases block with
    | definition isPublic fields =>
      have hjoined : (gap ++ below).Lacks Text.implWord :=
        lacks_gap_append (hgap.imp_left (·.1)) hlacks.1 hlacks.2.1
      have hrest : Carves name before ((gap ++ below) ++ pairs.flatMap (partLeft name))
          (implTexts name pairs) ((gap ++ below) ++ (pairs.map (·.2)).flatten) :=
        ih hparts.2 (List.forall_mem_cons.2 ⟨hjoined, hlacks.2.2⟩)
          (fun hne => .inr ((hseparates hne).1.trans (List.suffix_append _ _))) hlater hbelow.2
      rwa [List.append_assoc, List.append_assoc] at hrest
    | impl body =>
      have hrest : Carves name (before ++ gap ++ StructPart.text name (.impl body))
          (below ++ pairs.flatMap (partLeft name)) (implTexts name pairs)
          (below ++ (pairs.map (·.2)).flatten) :=
        ih hparts.2 (List.forall_mem_cons.2 hlacks.2) (fun hne => .inr (hseparates hne).1) hlater
          hbelow.2
      have hline : Text.endsLine (below ++ pairs.flatMap (partLeft name)) = true :=
        endsLine_gap (hbelow.1 rfl) fun hne => (hseparates hne).1
      have hblock : ImplBlock name (before ++ gap) (StructPart.text name (.impl body)) _ :=
        implBlock_text (atWordStart_gap hgap) hparts.1.1 hline
      have htaken := carves_gap hlacks.1 (.inr (hgap.imp_left (·.1))) (.take hblock hrest)
      have htext : partLeft name (.impl body, below)
          = StructPart.text name (.impl body) ++ below := rfl
      rw [htext, List.append_assoc]
      exact htaken

/-! ## Both -/

/-- The text that is left without the struct. -/
def left (source : StructSource) : Text :=
  source.head ++ source.rest.flatMap (partLeft source.name)

theorem cutSpans_left {source : StructSource} (h : source.WellFormed) :
    cutSpans 0 source.left (locateImpls source.left source.name)
      = (implTexts source.name source.rest, source.gaps.flatten) := by
  have hcarves : Carves source.name [] source.left (implTexts source.name source.rest)
      (source.head ++ (source.rest.map (·.2)).flatten) :=
    carves_impls h.parts (fun gap hgap => (h.lacks gap hgap).2)
      (fun _ => h.first.imp (⟨·, rfl⟩) (·.1)) h.between h.below
  rw [hcarves.cutSpans_eq h.name, gaps, List.flatten_cons]

theorem flatMap_partLeft {name : String} {pairs : List (StructPart × Text)}
    (himpls : ∀ pair ∈ pairs, pair.1.isDefinition = false) :
    pairs.flatMap (partLeft name) = pairs.flatMap (part name) := by
  refine List.flatMap_congr fun pair hpair => ?_
  rw [partLeft, if_neg (by rw [himpls pair hpair]; exact Bool.false_ne_true)]

theorem cutStruct_text {source : StructSource} (h : source.WellFormed)
    (hguarded : source.Guarded) : cutStruct source.text source.name
      = ⟨source.definition?, implTexts source.name source.rest, source.gaps.flatten⟩ := by
  have hcut := cutSpans_left h
  rw [cutStruct]
  rcases definition_cases h with himpls | ⟨before, isPublic, fields, gap, after, hrest, himpls⟩
  · have hleft : source.text = source.left := by
      rw [left, flatMap_partLeft himpls, text]
    have hnone : source.rest.find? (·.1.isDefinition) = none := by
      rw [List.find?_eq_none]
      intro pair hpair
      rw [himpls pair hpair]
      exact Bool.false_ne_true
    rw [locateStruct_of_impls h himpls, definition?, hnone]
    simp only [Option.map_none, Option.getD_none, hleft, hcut]
  · have himpls' := himpls
    rw [List.forall_mem_append] at himpls'
    have hleft : source.left
        = source.above before ++ (gap ++ after.flatMap (part source.name)) := by
      rw [left, hrest, List.flatMap_append, List.flatMap_cons, flatMap_partLeft himpls'.1,
        flatMap_partLeft himpls'.2, ← List.append_assoc]
      rfl
    have hfind : source.rest.find? (·.1.isDefinition)
        = some (.definition isPublic fields, gap) := by
      rw [hrest, List.find?_append, List.find?_eq_none.2, Option.none_or]
      · rfl
      · intro pair hpair
        rw [himpls'.1 pair hpair]
        exact Bool.false_ne_true
    have htext := text_eq hrest
    rw [← List.append_assoc] at htext
    rw [locateStruct_of_definition h hrest himpls hguarded, definition?, hfind, htext]
    simp only [Option.map_some, Option.getD_some, Text.slice_append, Text.erase_append, ← hleft,
      hcut]

/-- From a well-formed source the struct and its impl blocks are cut out as they stand, the struct
first, and the gaps are left. -/
theorem extractStruct_text {source : StructSource} (h : source.WellFormed)
    (hguarded : source.Guarded) : extractStruct source.text source.name
      = .ok ⟨source.definition?, implTexts source.name source.rest, source.gaps.flatten⟩ := by
  rw [extractStruct, cutStruct_text h hguarded]
  refine if_neg fun hempty => ?_
  obtain ⟨hdefinition, himpls⟩ := List.append_eq_nil_iff.1 (List.isEmpty_iff.1 hempty)
  rw [Option.toList_eq_nil_iff, definition?, Option.map_eq_none_iff, List.find?_eq_none]
    at hdefinition
  rw [implTexts, List.map_eq_nil_iff, List.filter_eq_nil_iff] at himpls
  obtain ⟨pair, hpair⟩ := List.exists_mem_of_ne_nil _ h.nonempty
  exact himpls pair hpair (by simpa using hdefinition pair hpair)

/-- A struct between two impl blocks, below a `pub` with its scope. -/
def scattered : StructSource :=
  ⟨"Mystruct", "pub (crate) use std::io;\n\n".toList,
    [(.impl "\n    fn new() \x7b\n    \x7d".toList, "\n\n".toList),
      (.definition true " x: (u8) ".toList, " // fields\n\nuse a;\n\n".toList),
      (.impl [], "\n".toList)]⟩

theorem extractStruct_text_sample : scattered.WellFormed ∧ scattered.Guarded ∧
    extractStruct scattered.text scattered.name = .ok ⟨scattered.definition?,
      implTexts scattered.name scattered.rest, scattered.gaps.flatten⟩ :=
  have h : scattered.WellFormed := by decide +kernel
  have hguarded : scattered.Guarded := by decide +kernel
  ⟨h, hguarded, extractStruct_text h hguarded⟩

/-- A scope of a `pub` that is open above a struct and closes in its fields, in front of what reads
as another struct of the name. -/
def openScope : StructSource :=
  ⟨"N", "pub (;\n\n".toList, [(.definition false " x) struct N <".toList, "> \x7b\x7d".toList)]⟩

/-- Unless such scopes are closed, more than the struct may be cut out. -/
theorem not_forall_cut :
    ¬ ∀ source : StructSource, source.WellFormed → extractStruct source.text source.name
      = .ok ⟨source.definition?, implTexts source.name source.rest, source.gaps.flatten⟩ := by
  intro hall
  have hwhole : extractStruct openScope.text openScope.name
      = .ok ⟨some openScope.text, [], []⟩ := by
    decide +kernel
  have hcut := hall openScope (by decide +kernel)
  rw [hwhole] at hcut
  exact absurd hcut (by decide +kernel)

end StructSource

end Carver
