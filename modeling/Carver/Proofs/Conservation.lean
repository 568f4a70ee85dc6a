import Carver.Proofs.Spelling
import Carver.Split
import Mathlib.Algebra.GroupWithZero.Nat

/-!
# Splitting a text keeps all of it

`Cuts text pieces rest` says that the pieces are taken out of the text one after the other, each in
one stretch of what is left by then, and that the rest remains. Every single extraction is such a
cut, also the cut of several impl blocks at once, and cuts go on from one another. So the pieces of
a whole split can be put back in reverse order, each at an offset of its own
(`exists_restore_split`).
-/

namespace Carver

namespace Text

/-- The text with the piece put in at the offset, if that is a boundary. -/
def insert? (text : Text) (offset : Nat) (piece : Text) : Option Text :=
  if IsBoundary text offset then
    some (takeBytes offset text ++ piece ++ dropBytes offset text)
  else none

/-- Puts pieces back into a text, each at its offset in the text as it is by then, the last piece
first. -/
def restore : List (Nat × Text) → Text → Option Text
  | [], text => some text
  | (offset, piece) :: later, text => (restore later text).bind (·.insert? offset piece)

theorem insert?_size_append (before after piece : Text) :
    insert? (before ++ after) (size before) piece = some (before ++ piece ++ after) := by
  rw [insert?, if_pos (isBoundary_size_append before after), takeBytes_size_append,
    dropBytes_size_append]

/-- Taking the pieces out of a text in order, each in one stretch of what is left by then, leaves
the rest. -/
inductive Cuts : Text → List Text → Text → Prop
  | none (text : Text) : Cuts text [] text
  | piece {before piece after rest : Text} {later : List Text} :
      Cuts (before ++ after) later rest → Cuts (before ++ piece ++ after) (piece :: later) rest

namespace Cuts

theorem trans {text mid rest : Text} {pieces later : List Text} (h : Cuts text pieces mid)
    (hlater : Cuts mid later rest) : Cuts text (pieces ++ later) rest := by
  induction h with
  | none text => exact hlater
  | piece _ ih => exact .piece (ih hlater)

/-- What stands before a text is not touched by cuts in it. -/
theorem behind {text rest : Text} {pieces : List Text} (h : Cuts text pieces rest)
    (front : Text) : Cuts (front ++ text) pieces (front ++ rest) := by
  induction h with
  | none text => exact .none _
  | @piece before piece after rest later _ ih =>
    rw [← List.append_assoc] at ih
    rw [List.append_assoc before, ← List.append_assoc front, ← List.append_assoc (front ++ before)]
    exact .piece ih

/-- The rest is the text without some of its characters. -/
theorem sublist {text rest : Text} {pieces : List Text} (h : Cuts text pieces rest) :
    rest.Sublist text := by
  induction h with
  | none text => exact List.Sublist.refl text
  | @piece before piece after rest later _ ih =>
    have hskip : (before ++ after).Sublist (before ++ piece ++ after) := by
      rw [List.append_assoc]
      exact (List.sublist_append_right piece after).append_left before
    exact ih.trans hskip

/-- The rest and the pieces together have the characters of the text, each as often. -/
theorem perm {text rest : Text} {pieces : List Text} (h : Cuts text pieces rest) :
    (rest ++ pieces.flatten).Perm text := by
  induction h with
  | none text => rw [List.flatten_nil, List.append_nil]
  | @piece before piece after rest later _ ih =>
    have hfront : (rest ++ (piece :: later).flatten).Perm (piece ++ (rest ++ later.flatten)) := by
      rw [List.flatten_cons, ← List.append_assoc, ← List.append_assoc]
      exact List.perm_append_comm.append_right _
    have hback : (piece ++ (before ++ after)).Perm (before ++ piece ++ after) := by
      rw [← List.append_assoc]
      exact List.perm_append_comm.append_right _
    exact (hfront.trans (ih.append_left piece)).trans hback

theorem size_eq {text rest : Text} {pieces : List Text} (h : Cuts text pieces rest) :
    size rest + (pieces.map size).sum = size text := by
  induction h with
  | none text => simp
  | piece _ ih =>
    simp only [size_append, List.map_cons, List.sum_cons] at ih ⊢
    omega

/-- Each piece goes back where it was cut out, and the last one goes first. -/
theorem exists_restore {text rest : Text} {pieces : List Text} (h : Cuts text pieces rest) :
    ∃ offsets : List Nat,
      offsets.length = pieces.length ∧ restore (offsets.zip pieces) rest = some text := by
  induction h with
  | none text => exact ⟨[], rfl, rfl⟩
  | @piece before piece after rest later _ ih =>
    obtain ⟨offsets, hlength, hrestore⟩ := ih
    refine ⟨size before :: offsets, by simp [hlength], ?_⟩
    rw [List.zip_cons_cons, restore, hrestore, Option.bind_some, insert?_size_append]

end Cuts

end Text

open Text (Cuts)

/-! ## Single extractions -/

/-- What is erased by a span that does not end before it starts is what is sliced by it. -/
theorem cuts_slice_erase (text : Text) {span : Span} (h : span.start ≤ span.stop) :
    Cuts text [text.slice span] (text.erase span) := by
  have hwhole := Text.takeBytes_append_slice_append_dropBytes h text
  have hcut : Cuts (text.takeBytes span.start ++ text.slice span ++ text.dropBytes span.stop)
      [text.slice span] (text.erase span) := .piece (.none _)
  rwa [hwhole] at hcut

theorem cuts_extractFrom? {text : Text} {start : Nat} {e : Extraction}
    (h : extractFrom? text start = some e) : Cuts text [e.text] e.remaining := by
  obtain ⟨span, hspan, rfl⟩ := Option.map_eq_some_iff.1 h
  obtain ⟨stop, hstop, rfl⟩ := Option.map_eq_some_iff.1 hspan
  have hle : start ≤ stop := by
    simp only [Braces.balancedEnd, Option.bind_eq_bind, Option.bind_eq_some_iff] at hstop
    obtain ⟨_, _, ⟨before, block, _⟩, _, hsum⟩ := hstop
    have hsum : start + Text.size before + Text.size block = stop := Option.some.inj hsum
    omega
  exact cuts_slice_erase text hle

theorem cuts_extractFunction {text : Text} {name : String} {e : Extraction}
    (h : extractFunction text name = .ok e) : Cuts text [e.text] e.remaining := by
  rw [extractFunction] at h
  split at h
  · cases h
  · split at h
    · cases h
    · rename_i hfrom
      cases h
      exact cuts_extractFrom? hfrom

/-- Spans are cut out of the text wherever they lie. -/
theorem cuts_cutSpans (base : Nat) (text : Text) (spans : List Span) :
    Cuts text (cutSpans base text spans).1 (cutSpans base text spans).2 := by
  induction spans generalizing base text with
  | nil => exact .none text
  | cons span later ih =>
    rw [cutSpans]
    -- the span splits the text in three, and the later spans are cut out of the third part
    have hhead := Text.takeBytes_append_dropBytes (span.start - base) text
    have htail := Text.takeBytes_append_dropBytes (span.stop - span.start)
      (text.dropBytes (span.start - base))
    have hlater := (ih span.stop ((text.dropBytes (span.start - base)).dropBytes
      (span.stop - span.start))).behind (text.takeBytes (span.start - base))
    have hcut := @Cuts.piece _ ((text.dropBytes (span.start - base)).takeBytes
      (span.stop - span.start)) _ _ _ hlater
    rwa [List.append_assoc, htail, hhead] at hcut

theorem start_le_stop_of_locateStruct {text : Text} {name : String} {span : Span}
    (h : locateStruct text name = some span) : span.start ≤ span.stop := by
  obtain ⟨hit, hhit, rfl⟩ := Option.map_eq_some_iff.1 h
  obtain ⟨word, _, hpass⟩ := (Pattern.derives_of_find? hhit).2.exists_spells
  have hstop := hpass.offset_eq
  simp only [Pattern.Hit.span]
  omega

theorem cuts_cutStruct (text : Text) (name : String) :
    Cuts text (cutStruct text name).blocks (cutStruct text name).remaining := by
  simp only [cutStruct, StructExtraction.blocks]
  cases hspan : locateStruct text name with
  | none => exact cuts_cutSpans 0 text _
  | some span =>
    have hstruct := cuts_slice_erase text (start_le_stop_of_locateStruct hspan)
    exact hstruct.trans (cuts_cutSpans 0 (text.erase span) _)

/-! ## Whole splits -/

theorem Request.cuts_take (text : Text) (request : Request) :
    Cuts text (request.take text).1.fragments (request.take text).2 := by
  obtain ⟨kind, name⟩ := request
  cases kind with
  | function =>
    simp only [Request.take]
    cases he : extractFunction text name with
    | ok e => exact cuts_extractFunction he
    | error reason => exact .none text
  | struct =>
    simp only [Request.take]
    cases he : extractStruct text name with
    | ok e =>
      rw [extractStruct] at he
      split at he
      · cases he
      · cases he
        exact cuts_cutStruct text name
    | error reason => exact .none text

/-- If every step cuts its pieces out of the text, so do all the steps together. -/
theorem cuts_thread {α β : Type} {step : Text → α → β × Text} (pieces : β → List Text)
    (hstep : ∀ text a, Cuts text (pieces (step text a).1) (step text a).2) (text : Text)
    (steps : List α) :
    Cuts text ((thread step text steps).1.flatMap pieces) (thread step text steps).2 := by
  induction steps generalizing text with
  | nil => exact .none text
  | cons a rest ih =>
    rw [thread, List.flatMap_cons]
    exact (hstep text a).trans (ih (step text a).2)

theorem ModulePlan.cuts_take (text : Text) (entry : ModulePlan) :
    Cuts text (entry.take text).1.fragments (entry.take text).2 :=
  cuts_thread Finding.fragments Request.cuts_take text entry.requests

/-- The texts that moved, in the order in which they were taken. -/
def Split.fragments (parts : Split) : List Text :=
  parts.modules.flatMap (·.fragments)

theorem cuts_split (text : Text) (plan : Plan) :
    Cuts text (split text plan).fragments (split text plan).remaining :=
  cuts_thread ModuleShare.fragments ModulePlan.cuts_take text plan

/-- Every fragment of a split has an offset such that putting the fragments back, the last one
first, gives the text again. Nothing is lost, doubled or invented: what remains is the text without
some of its characters, and with the fragments it has the same characters and the same size. -/
theorem exists_restore_split (text : Text) (plan : Plan) :
    (∃ offsets : List Nat,
      offsets.length = (split text plan).fragments.length ∧
        Text.restore (offsets.zip (split text plan).fragments) (split text plan).remaining
          = some text) ∧
      (split text plan).remaining.Sublist text ∧
      ((split text plan).remaining ++ (split text plan).fragments.flatten).Perm text ∧
      Text.size (split text plan).remaining + ((split text plan).fragments.map Text.size).sum
        = Text.size text := by
  have hcuts := cuts_split text plan
  exact ⟨hcuts.exists_restore, hcuts.sublist, hcuts.perm, hcuts.size_eq⟩

end Carver
