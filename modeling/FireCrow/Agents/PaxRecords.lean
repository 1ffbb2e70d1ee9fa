import FireCrow.Agents.Archive
import FireCrow.Library.LossyText

/-!
# Records of an extended header

A record is its length in digits, a space, a key, an equals sign, a value and a
line feed.  The reader takes the body line by line, whatever the lengths say.
-/

namespace FireCrow.Agents.Fetch

open FireCrow.Library

/-- The number that decimal digits write. -/
def decimal (digits : Bytes) : Nat :=
  digits.foldl (fun number digit => number * 10 + (digit.toNat - 48)) 0

/-- What stands behind the space of a record, but for its line feed. -/
def paxContent (key value : Bytes) : Bytes := key ++ '='.toUInt8 :: value

def paxRendered (length key value : Bytes) : Bytes :=
  length ++ ' '.toUInt8 :: (paxContent key value ++ ['\n'.toUInt8])

/-- A record that is well formed: the length counts all of it. -/
structure PaxRecord where
  length : Bytes
  key : Bytes
  value : Bytes
  digits : ∀ digit ∈ length, 48 ≤ digit.toNat ∧ digit.toNat ≤ 57
  noEquals : '='.toUInt8 ∉ key
  counts : decimal length = (paxRendered length key value).length

namespace PaxRecord

def rendered (record : PaxRecord) : Bytes :=
  paxRendered record.length record.key record.value

/-- The lines of a record without its length, decoded. -/
def lines (record : PaxRecord) : List Text :=
  (Bytes.fromUtf8Lossy (paxContent record.key record.value)).splitOn '\n'

/-- The first line of the value, decoded. -/
def firstLine (record : PaxRecord) : Text :=
  ((Bytes.fromUtf8Lossy record.value).splitOn '\n').headD []

def IsPath (record : PaxRecord) : Prop := record.key = Text.toBytes "path"

instance (record : PaxRecord) : Decidable record.IsPath :=
  inferInstanceAs (Decidable (record.key = _))

/-- What a line behind the first passes off as the value of a path record. -/
def decoy (record : PaxRecord) : Option Text :=
  record.lines.tail.findSome? pathRecord

end PaxRecord

def paxBody (records : List PaxRecord) : Bytes :=
  records.flatMap PaxRecord.rendered

/-- The value of the last path record. -/
def lastPath (records : List PaxRecord) : Option Bytes :=
  (records.reverse.find? fun record => record.IsPath).map PaxRecord.value

/-- The reader returns the value of the last path record, none without one. -/
def PathRead (records : List PaxRecord) : Prop :=
  (paxPath (paxBody records)).map Text.toBytes = lastPath records

/-! ## The lines of a body -/

/-- What the lines of a record hand to the reader. -/
def PaxRecord.found (record : PaxRecord) : Option Text :=
  if record.IsPath then some record.firstLine else record.decoy

theorem lossy_space (front back : Bytes) :
    Bytes.fromUtf8Lossy (front ++ ' '.toUInt8 :: back) =
      Bytes.fromUtf8Lossy front ++ ' ' :: Bytes.fromUtf8Lossy back :=
  Bytes.fromUtf8Lossy_append_cons (by decide) front back

theorem lossy_equals (front back : Bytes) :
    Bytes.fromUtf8Lossy (front ++ '='.toUInt8 :: back) =
      Bytes.fromUtf8Lossy front ++ '=' :: Bytes.fromUtf8Lossy back :=
  Bytes.fromUtf8Lossy_append_cons (by decide) front back

theorem lossy_lineFeed (front back : Bytes) :
    Bytes.fromUtf8Lossy (front ++ '\n'.toUInt8 :: back) =
      Bytes.fromUtf8Lossy front ++ '\n' :: Bytes.fromUtf8Lossy back :=
  Bytes.fromUtf8Lossy_append_cons (by decide) front back

/-- The first part of a text with something without marker in front. -/
theorem splitOn_append_front {marker : Char} {front : Text}
    (single : marker ∉ front) (text : Text) :
    (front ++ text).splitOn marker =
      (front ++ (text.splitOn marker).headD []) :: (text.splitOn marker).tail := by
  rcases List.exists_cons_of_ne_nil (List.splitOn_ne_nil marker text) with
    ⟨head, tail, split⟩
  rw [split, List.headD_cons, List.tail_cons]
  induction front with
  | nil => exact split
  | cons first front ih =>
      rw [List.mem_cons, not_or] at single
      rw [List.cons_append, List.splitOn_cons_eq_if_modifyHead, ih single.2,
        if_neg fun same => single.1 (beq_iff_eq.1 same).symm]
      rfl

theorem headD_splitOn_starts (marker : Char) (text : Text) :
    (text.splitOn marker).headD [] <+: text := by
  induction text with
  | nil => exact List.nil_prefix
  | cons first text ih =>
      rw [List.splitOn_cons_eq_if_modifyHead]
      split
      · exact List.nil_prefix
      · rcases List.exists_cons_of_ne_nil (List.splitOn_ne_nil marker text) with
          ⟨head, tail, split⟩
        rw [split] at ih ⊢
        exact List.prefix_cons_inj first |>.2 ih

theorem not_mem_length (record : PaxRecord) {character : Char}
    (ascii : Text.isAscii character = true)
    (other : character.val.toUInt8.toNat < 48 ∨ 57 < character.val.toUInt8.toNat) :
    character ∉ Bytes.fromUtf8Lossy record.length := by
  intro member
  have bounds := record.digits _ (Bytes.mem_of_mem_fromUtf8Lossy ascii member)
  omega

theorem lines_body (record : PaxRecord) (rest : Bytes) :
    (Bytes.fromUtf8Lossy (record.rendered ++ rest)).splitOn '\n' =
      (Bytes.fromUtf8Lossy record.length ++ ' ' :: record.lines.headD []) ::
        (record.lines.tail ++ (Bytes.fromUtf8Lossy rest).splitOn '\n') := by
  have spelled : record.rendered ++ rest =
      record.length ++ ' '.toUInt8 ::
        (paxContent record.key record.value ++ '\n'.toUInt8 :: rest) := by
    simp [PaxRecord.rendered, paxRendered]
  have single : '\n' ∉ Bytes.fromUtf8Lossy record.length ++ [' '] := by
    rw [List.mem_append, not_or]
    exact ⟨not_mem_length record rfl (Or.inl (by decide)), by decide⟩
  have front := splitOn_append_front single
    (Bytes.fromUtf8Lossy (paxContent record.key record.value))
  rw [List.append_assoc, List.append_assoc, List.singleton_append,
    List.singleton_append] at front
  rw [spelled, lossy_space, lossy_lineFeed, ← List.cons_append,
    ← List.append_assoc, List.splitOn_append_cons_self, front]
  rfl

theorem lossy_path : Bytes.fromUtf8Lossy (Text.toBytes "path") = "path" :=
  (Bytes.fromUtf8Lossy_eq_iff (by decide)).2 rfl

/-- The first line of a record names a path where its key does. -/
theorem pathRecord_first (record : PaxRecord) :
    pathRecord
        (Bytes.fromUtf8Lossy record.length ++ ' ' :: record.lines.headD []) =
      if record.IsPath then some record.firstLine else none := by
  have single : ' ' ∉ Bytes.fromUtf8Lossy record.length :=
    not_mem_length record rfl (Or.inl (by decide))
  rw [pathRecord, Text.splitOnce_append _ single, Option.bind_some]
  have content : record.lines = (Bytes.fromUtf8Lossy record.key ++
      '=' :: Bytes.fromUtf8Lossy record.value).splitOn '\n' := by
    rw [PaxRecord.lines, paxContent, lossy_equals]
  split_ifs with named
  · have spelled : Bytes.fromUtf8Lossy record.key ++
        '=' :: Bytes.fromUtf8Lossy record.value =
          ("path=" : Text) ++ Bytes.fromUtf8Lossy record.value := by
      rw [show record.key = _ from named, lossy_path]
      rfl
    rw [content, spelled, splitOn_append_front (by decide), List.headD_cons,
      Text.stripPrefix_eq_some]
    rfl
  · rw [Option.eq_none_iff_forall_ne_some]
    intro rest stripped
    rw [Text.stripPrefix_eq_some] at stripped
    refine named ?_
    -- the first line starts the content, whose first equals sign ends the key
    have noEquals : '=' ∉ Bytes.fromUtf8Lossy record.key := fun member =>
      record.noEquals (Bytes.mem_of_mem_fromUtf8Lossy rfl member)
    have starts := headD_splitOn_starts '\n' (Bytes.fromUtf8Lossy record.key ++
      '=' :: Bytes.fromUtf8Lossy record.value)
    rw [← content] at starts
    change record.lines.headD [] = _ at stripped
    rw [stripped] at starts
    rcases starts with ⟨more, whole⟩
    have named : Text.splitOnce '=' (Bytes.fromUtf8Lossy record.key ++
        '=' :: Bytes.fromUtf8Lossy record.value) =
          some (("path" : Text), rest ++ more) := by
      rw [← whole]
      have absent : '=' ∉ ("path" : Text) := by decide
      exact Text.splitOnce_append (rest ++ more) absent
    rw [Text.splitOnce_append _ noEquals, Option.some.injEq, Prod.mk.injEq] at named
    exact (Bytes.fromUtf8Lossy_eq_iff (by decide)).1 named.1

/-- The reader finds what the first record that hands it something hands it. -/
theorem paxPath_body (records : List PaxRecord) :
    paxPath (paxBody records) = records.findSome? PaxRecord.found := by
  induction records with
  | nil => decide
  | cons record records ih =>
      rw [paxPath] at ih ⊢
      rw [paxBody, List.flatMap_cons, ← paxBody, lines_body, List.findSome?_cons,
        List.findSome?_append, ih, pathRecord_first, List.findSome?_cons,
        PaxRecord.found]
      split_ifs
      · rfl
      · cases read : record.decoy <;> rw [PaxRecord.decoy] at read <;> simp [read]

/-! ## Reading by the grammar -/

theorem found_eq_none {record : PaxRecord} :
    record.found = none ↔ ¬ record.IsPath ∧ record.decoy = none := by
  rw [PaxRecord.found]
  split_ifs with named
  · exact iff_of_false id fun both => both.1 named
  · exact (and_iff_right named).symm

theorem found_eq_some {record : PaxRecord} {text : Text} :
    record.found = some text ↔
      (record.IsPath ∧ record.firstLine = text) ∨
        (¬ record.IsPath ∧ record.decoy = some text) := by
  rw [PaxRecord.found]
  split_ifs with named
  · simp [named]
  · simp [named]

/-- Without path record no later line of a record passes for one.  Otherwise
the first record that is one or has such a line carries there the value of the
last path record. -/
structure Undeceived (records : List PaxRecord) : Prop where
  unnamed : lastPath records = none → ∀ record ∈ records, record.decoy = none
  named : ∀ value, lastPath records = some value →
    ∃ before record after, records = before ++ record :: after ∧
      (∀ other ∈ before, ¬ other.IsPath ∧ other.decoy = none) ∧
        ((record.IsPath ∧ record.firstLine.toBytes = value) ∨
          ¬ record.IsPath ∧ ∃ text, record.decoy = some text ∧
            text.toBytes = value)

/-- The reader follows the grammar where no line deceives it. -/
theorem pathRead_iff (records : List PaxRecord) :
    PathRead records ↔ Undeceived records := by
  rw [PathRead, paxPath_body]
  cases last : lastPath records with
  | none =>
      have unnamed : ∀ record ∈ records, ¬ record.IsPath := by
        intro record member
        rw [lastPath, Option.map_eq_none_iff, List.find?_eq_none] at last
        exact fun named =>
          last record (List.mem_reverse.2 member) (decide_eq_true named)
      rw [Option.map_eq_none_iff, List.findSome?_eq_none_iff]
      constructor
      · intro silent
        refine ⟨fun _ record member => (found_eq_none.1 (silent record member)).2,
          fun value named => ?_⟩
        rw [last] at named
        cases named
      · intro plain record member
        exact found_eq_none.2 ⟨unnamed record member, plain.unnamed last record member⟩
  | some value =>
      rw [Option.map_eq_some_iff]
      constructor
      · rintro ⟨text, first, same⟩
        rcases List.findSome?_eq_some_iff.1 first with
          ⟨before, record, after, split, here, silent⟩
        refine ⟨fun none => ?_, fun other named => ?_⟩
        · rw [last] at none
          cases none
        · rw [last, Option.some.injEq] at named
          refine ⟨before, record, after, split,
            fun other member => found_eq_none.1 (silent other member), ?_⟩
          rcases found_eq_some.1 here with ⟨path, rfl⟩ | ⟨path, read⟩
          · exact Or.inl ⟨path, same.trans named⟩
          · exact Or.inr ⟨path, text, read, same.trans named⟩
      · intro plain
        rcases plain.named value last with ⟨before, record, after, split, silent, here⟩
        have found : ∃ text, record.found = some text ∧ text.toBytes = value := by
          rcases here with ⟨path, same⟩ | ⟨path, text, read, same⟩
          · exact ⟨_, found_eq_some.2 (Or.inl ⟨path, rfl⟩), same⟩
          · exact ⟨text, found_eq_some.2 (Or.inr ⟨path, read⟩), same⟩
        rcases found with ⟨text, read, same⟩
        exact ⟨text, List.findSome?_eq_some_iff.2 ⟨before, record, after, split,
          read, fun other member => found_eq_none.2 (silent other member)⟩, same⟩

theorem comment_digits : ∀ digit ∈ Text.toBytes "25",
    48 ≤ digit.toNat ∧ digit.toNat ≤ 57 := by decide +kernel

theorem comment_noEquals : '='.toUInt8 ∉ Text.toBytes "comment" := by
  decide

theorem comment_counts : decimal (Text.toBytes "25") =
    (paxRendered (Text.toBytes "25") (Text.toBytes "comment")
      (Text.toBytes "x\n1 path=evil")).length := by decide

/-- A comment whose second line looks like a path record. -/
def deceivingComment : PaxRecord where
  length := Text.toBytes "25"
  key := Text.toBytes "comment"
  value := Text.toBytes "x\n1 path=evil"
  digits := comment_digits
  noEquals := comment_noEquals
  counts := comment_counts

theorem comment_names_path : ¬ ∀ records, PathRead records := by
  intro claim
  have plain := (pathRead_iff [deceivingComment]).1 (claim _)
  have silent := plain.unnamed (by decide) _ List.mem_cons_self
  exact absurd silent (by decide)

end FireCrow.Agents.Fetch
