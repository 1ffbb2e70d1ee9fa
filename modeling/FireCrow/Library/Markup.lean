import FireCrow.Library.Text

/-!
# Assembled documents

A document is assembled of fixed fragments and of data.  The tags of an HTML
document are read character by character; a fixed fragment that leaves no tag
open and data without markup characters keep them apart.
-/

namespace FireCrow.Library

inductive Fragment where
  | fixed (text : Text)
  | data (text : Text)

def Fragment.text : Fragment → Text
  | .fixed text => text
  | .data text => text

def assemble (fragments : List Fragment) : Text :=
  fragments.flatMap Fragment.text

@[simp]
theorem assemble_nil : assemble [] = [] := rfl

@[simp]
theorem assemble_cons (fragment : Fragment) (fragments : List Fragment) :
    assemble (fragment :: fragments) = fragment.text ++ assemble fragments := rfl

theorem assemble_append (front back : List Fragment) :
    assemble (front ++ back) = assemble front ++ assemble back :=
  List.flatMap_append

/-- What the template of a document is: its fixed fragments and its holes. -/
def Fragment.hole : Fragment → Option Text
  | .fixed text => some text
  | .data _ => none

def template (fragments : List Fragment) : List (Option Text) :=
  fragments.map Fragment.hole

@[simp]
theorem template_nil : template [] = [] := rfl

@[simp]
theorem template_fixed (text : Text) (rest : List Fragment) :
    template (.fixed text :: rest) = some text :: template rest := rfl

@[simp]
theorem template_data (text : Text) (rest : List Fragment) :
    template (.data text :: rest) = none :: template rest := rfl

theorem template_append (front back : List Fragment) :
    template (front ++ back) = template front ++ template back :=
  List.map_append

variable {Item : Type}

theorem template_flatMap {fragments : Item → List Fragment}
    {first second : List Item}
    (each : List.Forall₂
      (fun left right => template (fragments left) = template (fragments right))
      first second) :
    template (first.flatMap fragments) = template (second.flatMap fragments) := by
  induction each with
  | nil => rfl
  | cons here _ ih =>
      rw [List.flatMap_cons, List.flatMap_cons, template_append, template_append,
        here, ih]

/-- Lists of one length, and fragments with one template. -/
theorem template_flatMap_of_length {fragments : Item → List Fragment}
    {first second : List Item} (same : first.length = second.length)
    (each : ∀ left right,
      template (fragments left) = template (fragments right)) :
    template (first.flatMap fragments) = template (second.flatMap fragments) := by
  refine template_flatMap (List.forall₂_iff_zip.2 ⟨same, ?_⟩)
  intro left right _
  exact each left right

/-- Lists of one length are both empty or both not. -/
theorem isEmpty_of_length {first second : List Item}
    (same : first.length = second.length) : first.isEmpty = second.isEmpty := by
  cases first with
  | nil =>
      rw [List.eq_nil_of_length_eq_zero same.symm]
  | cons item items =>
      cases second with
      | nil => cases same
      | cons other others => rfl

theorem length_toList {first second : Option Item}
    (same : first.isSome = second.isSome) :
    first.toList.length = second.toList.length := by
  cases first with
  | none =>
      cases second with
      | none => rfl
      | some value => cases same
  | some value =>
      cases second with
      | none => cases same
      | some other => rfl

/-- Options that are both present or both not, and fragments with one template. -/
theorem template_toList {fragments : Item → List Fragment}
    {first second : Option Item} (same : first.isSome = second.isSome)
    (each : ∀ left right, template (fragments left) = template (fragments right)) :
    template (first.toList.flatMap fragments) =
      template (second.toList.flatMap fragments) :=
  template_flatMap_of_length (length_toList same) each

namespace Html

/-! ## Tags -/

/-- Where a reader of a document is. -/
inductive Place where
  | content
  | tag (read : Text)
  | quoted (mark : Char) (read : Text)
deriving DecidableEq

def step : Place → Char → Place
  | .content, character => if character = '<' then .tag [] else .content
  | .tag read, character =>
      if character = '>' then .content
      else if character = '"' ∨ character = '\'' then
        .quoted character (read ++ [character])
      else .tag (read ++ [character])
  | .quoted mark read, character =>
      if character = mark then .tag (read ++ [character])
      else .quoted mark (read ++ [character])

/-- The tag that a character ends. -/
def ended : Place → Char → Option Text
  | .tag read, character => if character = '>' then some read else none
  | _, _ => none

def tagsFrom : Place → Text → List Text
  | _, [] => []
  | place, character :: rest =>
      (ended place character).toList ++ tagsFrom (step place character) rest

/-- The tags of a document, with their attributes. -/
def tags (document : Text) : List Text := tagsFrom .content document

/-- The place behind a text. -/
def reached (place : Place) (text : Text) : Place := text.foldl step place

theorem tagsFrom_append (place : Place) (front back : Text) :
    tagsFrom place (front ++ back) =
      tagsFrom place front ++ tagsFrom (reached place front) back := by
  induction front generalizing place with
  | nil => rfl
  | cons character front ih =>
      rw [List.cons_append, tagsFrom, tagsFrom, ih, List.append_assoc]
      rfl

/-- A text that leaves no tag open. -/
def Closed (text : Text) : Prop := reached .content text = .content

instance (text : Text) : Decidable (Closed text) :=
  inferInstanceAs (Decidable (_ = _))

theorem closed_literal {characters : List Char}
    (closed : reached .content characters = .content) :
    Closed (String.ofList characters).toList := by
  rw [String.toList_ofList]
  exact closed

theorem tags_append {front : Text} (closed : Closed front) (back : Text) :
    tags (front ++ back) = tags front ++ tags back := by
  rw [tags, tagsFrom_append, closed]
  rfl

/-! ## Text without markup -/

def entities : List Text :=
  ["&amp;", "&lt;", "&gt;", "&quot;", "&#x27;", "&#39;"]

def isMarkup (character : Char) : Bool :=
  character = '&' || character = '<' || character = '>' || character = '"' ||
    character = '\''

/-- Characters without meaning in HTML, and entities. -/
inductive Inert : Text → Prop where
  | nil : Inert []
  | plain {character : Char} {rest : Text} :
      isMarkup character = false → Inert rest → Inert (character :: rest)
  | entity {entity rest : Text} :
      entity ∈ entities → Inert rest → Inert (entity ++ rest)

theorem Inert.append {front back : Text} (first : Inert front)
    (second : Inert back) : Inert (front ++ back) := by
  induction first with
  | nil => exact second
  | plain unmarked _ ih => exact .plain unmarked ih
  | entity known _ ih =>
      rw [List.append_assoc]
      exact .entity known ih

variable {text : Text}

theorem inert_of_plain
    (plain : ∀ character ∈ text, isMarkup character = false) : Inert text := by
  induction text with
  | nil => exact .nil
  | cons character rest ih =>
      exact .plain (plain character List.mem_cons_self)
        (ih fun other member => plain other (List.mem_cons_of_mem _ member))

theorem inert_flatMap {written : Char → Text}
    (each : ∀ character, Inert (written character)) : Inert (text.flatMap written) := by
  induction text with
  | nil => exact .nil
  | cons character rest ih => exact (each character).append ih

/-- Inert text opens no tag. -/
theorem Inert.angle_not_mem (inert : Inert text) : '<' ∉ text := by
  induction inert with
  | nil => exact List.not_mem_nil
  | plain unmarked _ ih =>
      rw [List.mem_cons, not_or]
      refine ⟨?_, ih⟩
      rintro rfl
      cases unmarked
  | entity known _ ih =>
      rw [List.mem_append, not_or]
      exact ⟨(by decide : ∀ entity ∈ entities, '<' ∉ entity) _ known, ih⟩

theorem reached_of_bare (bare : '<' ∉ text) :
    reached .content text = .content ∧ tags text = [] := by
  induction text with
  | nil => exact ⟨rfl, rfl⟩
  | cons character rest ih =>
      rw [List.mem_cons, not_or] at bare
      rcases ih bare.2 with ⟨closed, none⟩
      have stays : step .content character = .content :=
        if_neg fun same => bare.1 same.symm
      rw [reached, List.foldl_cons, stays]
      refine ⟨closed, ?_⟩
      rw [tags, tagsFrom, stays]
      exact none

theorem Inert.closed (inert : Inert text) : Closed text :=
  (reached_of_bare inert.angle_not_mem).1

theorem Inert.tags_eq (inert : Inert text) : tags text = [] :=
  (reached_of_bare inert.angle_not_mem).2

/-! ## SoundMarkup fragments -/

/-- Data is inert, and the template leaves no tag open. -/
def SoundFragment : Fragment → Prop
  | .fixed text => Closed text
  | .data text => Inert text

/-- A list of sound fragments. -/
def SoundMarkup (fragments : List Fragment) : Prop :=
  ∀ fragment ∈ fragments, SoundFragment fragment

@[simp]
theorem sound_nil : SoundMarkup [] :=
  fun _ member => absurd member List.not_mem_nil

@[simp]
theorem sound_cons (fragment : Fragment) (fragments : List Fragment) :
    SoundMarkup (fragment :: fragments) ↔ SoundFragment fragment ∧ SoundMarkup fragments :=
  List.forall_mem_cons

@[simp]
theorem sound_append (front back : List Fragment) :
    SoundMarkup (front ++ back) ↔ SoundMarkup front ∧ SoundMarkup back :=
  List.forall_mem_append

theorem sound_flatMap {Item : Type} {items : List Item}
    {fragments : Item → List Fragment}
    (each : ∀ item, SoundMarkup (fragments item)) : SoundMarkup (items.flatMap fragments) := by
  intro fragment member
  rw [List.mem_flatMap] at member
  rcases member with ⟨item, _, inside⟩
  exact each item fragment inside

theorem sound_ite {condition : Prop} [Decidable condition]
    {positive negative : List Fragment} (first : SoundMarkup positive)
    (second : SoundMarkup negative) :
    SoundMarkup (if condition then positive else negative) := by
  split
  · exact first
  · exact second

theorem SoundFragment.closed {fragment : Fragment} (sound : SoundFragment fragment) :
    Closed fragment.text := by
  cases fragment with
  | fixed text => exact sound
  | data text => exact Inert.closed sound

/-- SoundMarkup documents of one template have the same tags. -/
theorem tags_eq_of_template {first second : List Fragment}
    (same : template first = template second) (firstSound : SoundMarkup first)
    (secondSound : SoundMarkup second) :
    tags (assemble first) = tags (assemble second) := by
  induction first generalizing second with
  | nil =>
      rw [List.map_eq_nil_iff.1 same.symm]
  | cons head rest ih =>
      cases second with
      | nil => cases same
      | cons other more =>
          rcases List.cons.inj same with ⟨heads, rests⟩
          rw [sound_cons] at firstSound secondSound
          rw [assemble_cons, assemble_cons, tags_append firstSound.1.closed,
            tags_append secondSound.1.closed, ih rests firstSound.2 secondSound.2]
          congr 1
          cases head with
          | fixed text =>
              cases other with
              | fixed other => rw [Option.some.inj heads]
              | data other => cases heads
          | data text =>
              cases other with
              | fixed other => cases heads
              | data other =>
                  exact firstSound.1.tags_eq.trans secondSound.1.tags_eq.symm

end Html

end FireCrow.Library
