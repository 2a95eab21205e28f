import BoardRules.Proofs.Entity.Canonical
import BoardRules.Proofs.Note.RepositoryNames

/-!
# The first closing reference

A closing reference is a keyword in any letter case, a gap of blanks and a run of reference
characters. Neither keywords nor references contain blanks. So the three parts show in the text, and
no two keywords lead to different references in one place (`referenceAt?_eq_some_iff`). The first
place where a closing reference starts decides what a description refers to, whatever stands before
and after it, and the marks of a sentence behind the reference are no part of it.
-/
namespace BoardRules

open Text
open Note (RepositoryName isNameCharacter isNameCharacter_cases eq_of_isJoint)

namespace ClosingReference

/-! ## Case folding -/

/-- Characters that a property tells from the long s and the sign for kelvin fold as in ASCII. -/
theorem fold_eq_toLower {c : Char} {p : Char → Bool} (longS : p c ≠ p '\u017f')
    (kelvin : p c ≠ p '\u212a') : fold c = c.toLower := by
  rw [fold, if_neg (ne_of_apply_ne p longS), if_neg (ne_of_apply_ne p kelvin)]

theorem fold_of_isBlank {c : Char} (blank : isBlank c = true) : fold c = c := by
  have upper : ¬ (c.val ≥ 'A'.val ∧ c.val ≤ 'Z'.val) := by
    intro upper
    have letter : c.isAlphanum = true := isAlphanum_iff.mpr (Or.inl (Or.inl upper))
    rw [isBlank_of_isAlphanum letter] at blank
    cases blank
  rw [fold_eq_toLower (p := isBlank) (by rw [blank]; decide) (by rw [blank]; decide)]
  exact dif_neg upper

theorem isBlank_of_isAlphanum_fold {c : Char} (letter : (fold c).isAlphanum = true) :
    isBlank c = false := by
  cases blank : isBlank c with
  | false => rfl
  | true =>
    rw [fold_of_isBlank blank] at letter
    exact blank.symm.trans (isBlank_of_isAlphanum letter)

theorem isAlphanum_fold {c : Char} (letter : c.isAlphanum = true) :
    (fold c).isAlphanum = true := by
  rw [fold_eq_toLower (p := Char.isAlphanum) (by rw [letter]; decide) (by rw [letter]; decide)]
  by_cases upper : c.val ≥ 'A'.val ∧ c.val ≤ 'Z'.val
  · have shifted : c.toLower.toNat = (c.toNat + 32) % 2 ^ 32 :=
      (congrArg Char.toNat (dif_pos upper)).trans (UInt32.toNat_add _ _)
    have range : 65 ≤ c.toNat ∧ c.toNat ≤ 90 := upper
    exact isAlphanum_iff.mpr (by omega)
  · have same : c.toLower = c := dif_neg upper
    rw [same, letter]

theorem isBlank_of_isReferenceChar {c : Char} (allowed : isReferenceChar c = true) :
    isBlank c = false := by
  simp only [isReferenceChar, Bool.or_eq_true, beq_iff_eq] at allowed
  rcases allowed with (((((letter | rfl) | rfl) | rfl) | rfl) | rfl) | rfl
  · exact isBlank_of_isAlphanum_fold letter
  all_goals decide

theorem isBlank_of_mem_keyword {keyword : List Char} (known : keyword.map fold ∈ keywords)
    {c : Char} (member : c ∈ keyword) : isBlank c = false := by
  have words : keywords.all (·.all Char.isAlphanum) = true := by decide
  have word := List.all_eq_true.mp words _ known
  exact isBlank_of_isAlphanum_fold (List.all_eq_true.mp word _ (List.mem_map_of_mem member))

/-! ## Closing references in a text -/

/-- A keyword in any letter case, a gap and a reference. -/
structure Closing (keyword gap reference : List Char) : Prop where
  known : keyword.map fold ∈ keywords
  spaced : gap ≠ []
  blank : ∀ c ∈ gap, isBlank c = true
  nonempty : reference ≠ []
  allowed : ∀ c ∈ reference, isReferenceChar c = true

/-- A closing reference starts at the beginning of the text. -/
def Closes (text : List Char) : Prop :=
  ∃ keyword gap reference rest, Closing keyword gap reference ∧
    text = keyword ++ (gap ++ (reference ++ rest))

/-- What the first word of a text refers to if it is a keyword. -/
def referred (text : List Char) : List Char :=
  ((text.dropWhile (!isBlank ·)).dropWhile isBlank).takeWhile isReferenceChar

variable {text keyword gap reference : List Char}

theorem afterKeyword?_eq_some_iff {word rest : List Char} : afterKeyword? word text = some rest ↔
    ∃ keyword, keyword.map fold = word ∧ text = keyword ++ rest := by
  induction word generalizing text with
  | nil => simp [afterKeyword?]
  | cons k word ih =>
    cases text with
    | nil => simp [afterKeyword?]
    | cons c text =>
      rw [afterKeyword?]
      constructor
      · intro found
        split at found
        · next same =>
          obtain ⟨keyword, rfl, rfl⟩ := ih.mp found
          exact ⟨c :: keyword, by rw [List.map_cons, same], rfl⟩
        · cases found
      · rintro ⟨_ | ⟨d, keyword⟩, spells, split⟩
        · cases spells
        · obtain ⟨rfl, rfl⟩ := List.cons.inj spells
          obtain ⟨rfl, rfl⟩ := List.cons.inj split
          rw [if_pos rfl]
          exact ih.mpr ⟨keyword, rfl, rfl⟩

/-- The keyword ends at the first blank. -/
theorem referred_append (known : keyword.map fold ∈ keywords) {b : Char} (blank : isBlank b = true)
    (rest : List Char) : referred (keyword ++ b :: rest) =
      (rest.dropWhile isBlank).takeWhile isReferenceChar := by
  have word : ∀ c ∈ keyword, (!isBlank c) = true := fun c member => by
    rw [isBlank_of_mem_keyword known member]
    rfl
  have cut : (keyword ++ b :: rest).dropWhile (!isBlank ·) = b :: rest :=
    (List.dropWhile_append_of_pos word).trans (List.dropWhile_cons_of_neg (by simp [blank]))
  rw [referred, cut, List.dropWhile_cons_of_pos blank]

/-- The gap ends where the reference begins, which goes on as long as it can. -/
theorem Closing.takeWhile_gap {b : Char} {more : List Char}
    (closing : Closing keyword (b :: more) reference) (rest : List Char) :
    ((more ++ (reference ++ rest)).dropWhile isBlank).takeWhile isReferenceChar =
      reference ++ rest.takeWhile isReferenceChar := by
  obtain ⟨c, reference, rfl⟩ := List.exists_cons_of_ne_nil closing.nonempty
  have blank : ∀ c ∈ more, isBlank c = true := (List.forall_mem_cons.mp closing.blank).2
  have visible : isBlank c = false :=
    isBlank_of_isReferenceChar (closing.allowed c List.mem_cons_self)
  rw [List.dropWhile_append_of_pos blank, List.cons_append,
    List.dropWhile_cons_of_neg (by simp [visible]), ← List.cons_append,
    List.takeWhile_append_of_pos closing.allowed]

theorem Closing.referred_eq (closing : Closing keyword gap reference) (rest : List Char) :
    referred (keyword ++ (gap ++ (reference ++ rest))) =
      reference ++ rest.takeWhile isReferenceChar := by
  obtain ⟨b, more, rfl⟩ := List.exists_cons_of_ne_nil closing.spaced
  exact (referred_append closing.known (closing.blank b List.mem_cons_self) _).trans
    (closing.takeWhile_gap rest)

theorem closes_of_referenceAt? (reads : referenceAt? text = some reference) :
    Closes text ∧ referred text = reference := by
  obtain ⟨word, known, found⟩ := List.exists_of_findSome?_eq_some reads
  split at found
  · next b rest after =>
    dsimp only at found
    split at found
    · next complete =>
      obtain ⟨keyword, rfl, rfl⟩ := afterKeyword?_eq_some_iff.mp after
      simp only [Bool.and_eq_true, Bool.not_eq_true', List.isEmpty_eq_false_iff] at complete
      obtain ⟨blank, nonempty⟩ := complete
      obtain rfl := Option.some.inj found
      have closing : Closing keyword (b :: rest.takeWhile isBlank)
          ((rest.dropWhile isBlank).takeWhile isReferenceChar) :=
        ⟨known, List.cons_ne_nil _ _,
          List.forall_mem_cons.mpr ⟨blank, fun _ => List.mem_takeWhile_imp⟩, nonempty,
          fun _ => List.mem_takeWhile_imp⟩
      refine ⟨⟨_, _, _, (rest.dropWhile isBlank).dropWhile isReferenceChar, closing, ?_⟩,
        referred_append known blank rest⟩
      rw [List.takeWhile_append_dropWhile, List.cons_append, List.takeWhile_append_dropWhile]
    · cases found
  · cases found

theorem referenceAt?_of_closes (closes : Closes text) : referenceAt? text ≠ none := by
  obtain ⟨keyword, gap, reference, rest, closing, rfl⟩ := closes
  obtain ⟨b, more, rfl⟩ := List.exists_cons_of_ne_nil closing.spaced
  have blank : isBlank b = true := closing.blank b List.mem_cons_self
  have after : afterKeyword? (keyword.map fold) (keyword ++ (b :: more ++ (reference ++ rest))) =
      some (b :: (more ++ (reference ++ rest))) := afterKeyword?_eq_some_iff.mpr ⟨keyword, rfl, rfl⟩
  intro missing
  have fails := List.findSome?_eq_none_iff.mp missing _ closing.known
  rw [after] at fails
  simp [blank, closing.takeWhile_gap, closing.nonempty] at fails

theorem referenceAt?_eq_some_iff :
    referenceAt? text = some reference ↔ Closes text ∧ referred text = reference := by
  refine ⟨closes_of_referenceAt?, ?_⟩
  rintro ⟨closes, rfl⟩
  -- Some keyword is found first; whichever it is, it leads to the same reference.
  obtain ⟨other, found⟩ := Option.ne_none_iff_exists'.mp (referenceAt?_of_closes closes)
  rw [found, (closes_of_referenceAt? found).2]

theorem referenceAt?_eq_none_iff : referenceAt? text = none ↔ ¬ Closes text := by
  refine ⟨fun missing closes => referenceAt?_of_closes closes missing, fun unclosed => ?_⟩
  exact Option.eq_none_iff_forall_ne_some.mpr fun _ found =>
    unclosed (closes_of_referenceAt? found).1

instance (text : List Char) : Decidable (Closes text) :=
  decidable_of_iff (referenceAt? text ≠ none) (by rw [ne_eq, referenceAt?_eq_none_iff, not_not])

/-! ## The first place -/

theorem first?_of_not_closes {c : Char} (unclosed : ¬ Closes (c :: text)) :
    first? (c :: text) = first? text := by
  rw [first?, referenceAt?_eq_none_iff.mpr unclosed]

theorem not_closes_nil : ¬ Closes [] := referenceAt?_eq_none_iff.mp (by decide)

theorem first?_of_closes (closes : Closes text) : first? text = some (referred text) := by
  have found := referenceAt?_eq_some_iff.mpr ⟨closes, rfl⟩
  cases text with
  | nil => exact absurd closes not_closes_nil
  | cons c text => rw [first?, found]

/-- A text in which no closing reference starts is passed over. -/
theorem first?_append {before : List Char}
    (unclosed : ∀ start < before.length, ¬ Closes ((before ++ text).drop start)) :
    first? (before ++ text) = first? text := by
  induction before with
  | nil => rfl
  | cons c before ih =>
    -- A place in what follows is the next place of the whole text.
    have here : ¬ Closes (c :: (before ++ text)) := unclosed 0 (Nat.zero_lt_succ _)
    have later : ∀ start < before.length, ¬ Closes ((before ++ text).drop start) :=
      fun start inside => unclosed (start + 1) (Nat.succ_lt_succ inside)
    rw [List.cons_append, first?_of_not_closes here, ih later]

theorem first?_eq_none_iff : first? text = none ↔ ∀ start, ¬ Closes (text.drop start) := by
  induction text with
  | nil => simpa [first?] using not_closes_nil
  | cons c text ih =>
    by_cases closes : Closes (c :: text)
    · rw [first?_of_closes closes]
      exact ⟨fun missing => (nomatch missing), fun unclosed => absurd closes (unclosed 0)⟩
    · rw [first?_of_not_closes closes, ih]
      refine ⟨fun unclosed start => ?_, fun unclosed start => unclosed (start + 1)⟩
      cases start with
      | zero => exact closes
      | succ start => exact unclosed start

/-! ## References -/

structure HostName where
  text : String
  nonempty : text.toList ≠ []
  alphabet : ∀ c ∈ text.toList, isNameCharacter c = true ∨ c = ':'

/-- A positive number of 64 bits, with zeros in front or without. -/
structure Numeral where
  digits : List Char
  number : Nat
  spelled : Decimal.Digits digits number
  positive : 0 < number
  small : number < Decimal.wordBound

/-- The three ways to name an issue. -/
inductive Reference where
  | number (numeral : Numeral)
  | short (owner repository : RepositoryName) (numeral : Numeral)
  | full (scheme : Scheme) (host : HostName) (owner repository : RepositoryName) (numeral : Numeral)

namespace Reference

def numeral : Reference → Numeral
  | .number numeral => numeral
  | .short _ _ numeral => numeral
  | .full _ _ _ _ numeral => numeral

/-- What stands in front of the number. -/
def lead : Reference → String
  | .number _ => "#"
  | .short owner repository _ => owner.text ++ "/" ++ repository.text ++ "#"
  | .full scheme host owner repository _ =>
    scheme.name ++ "://" ++ host.text ++ "/" ++ owner.text ++ "/" ++ repository.text ++ "/issues/"

def spelling (reference : Reference) : List Char :=
  reference.lead.toList ++ reference.numeral.digits

/-- The issue that a reference names in a pull request's description. -/
def issue (pullRequest : EntityUrl) : Reference → EntityUrl
  | .number numeral =>
    pullRequest.siblingIssue pullRequest.owner pullRequest.repository numeral.number
  | .short owner repository numeral =>
    pullRequest.siblingIssue owner.text repository.text numeral.number
  | .full scheme host owner repository numeral =>
    ⟨scheme, host.text, owner.text, repository.text, .issue, numeral.number⟩

end Reference

theorem isReferenceChar_of_isAlphanum {c : Char} (letter : c.isAlphanum = true) :
    isReferenceChar c = true := by
  simp [isReferenceChar, isAlphanum_fold letter]

theorem isReferenceChar_of_isNameCharacter {c : Char} (name : isNameCharacter c = true) :
    isReferenceChar c = true := by
  rcases isNameCharacter_cases name with letter | joint | rfl
  · exact isReferenceChar_of_isAlphanum letter
  · rcases eq_of_isJoint joint with rfl | rfl <;> decide
  · decide

theorem not_mem_name (name : RepositoryName) {c : Char} (other : isNameCharacter c = false) :
    c ∉ name.text.toList := by
  intro member
  rw [name.alphabet c member] at other
  cases other

theorem isSegment_name (name : RepositoryName) : IsSegment name.text.toList :=
  ⟨name.nonempty, not_mem_name name (by decide)⟩

theorem isSegment_host (host : HostName) : IsSegment host.text.toList :=
  ⟨host.nonempty, fun member => absurd (host.alphabet '/' member) (by decide)⟩

namespace Numeral

variable (numeral : Numeral)

theorem spells : Decimal.Spells numeral.digits numeral.number :=
  ⟨_, numeral.spelled, Or.inl rfl⟩

theorem positive?_digits : positive? numeral.digits = some numeral.number :=
  positive?_eq_some_iff.mpr ⟨numeral.spells, numeral.positive, numeral.small⟩

end Numeral

namespace Reference

variable (reference : Reference)

theorem isReferenceChar_of_mem_spelling :
    ∀ c ∈ reference.spelling, isReferenceChar c = true := by
  have literal : ∀ {text : List Char}, text.all isReferenceChar = true →
      ∀ c ∈ text, isReferenceChar c = true := List.all_eq_true.mp
  have name : ∀ name : RepositoryName, ∀ c ∈ name.text.toList, isReferenceChar c = true :=
    fun name c member => isReferenceChar_of_isNameCharacter (name.alphabet c member)
  have digits : ∀ c ∈ reference.numeral.digits, isReferenceChar c = true := fun c member =>
    isReferenceChar_of_isAlphanum
      (by simp [Char.isAlphanum, reference.numeral.spelled.decimal c member])
  rw [spelling, List.forall_mem_append]
  refine ⟨?_, digits⟩
  cases reference with
  | number numeral =>
    rw [lead]
    exact literal (by decide)
  | short owner repository numeral =>
    simp only [lead, String.toList_append, List.forall_mem_append]
    exact ⟨⟨⟨name owner, literal (by decide)⟩, name repository⟩, literal (by decide)⟩
  | full scheme host owner repository numeral =>
    have schemeName : ∀ c ∈ scheme.name.toList, isReferenceChar c = true := by
      cases scheme <;> exact literal (by decide)
    have hostName : ∀ c ∈ host.text.toList, isReferenceChar c = true := by
      intro c member
      rcases host.alphabet c member with name | rfl
      · exact isReferenceChar_of_isNameCharacter name
      · decide
    simp only [lead, String.toList_append, List.forall_mem_append]
    exact ⟨⟨⟨⟨⟨⟨⟨schemeName, literal (by decide)⟩, hostName⟩, literal (by decide)⟩, name owner⟩,
      literal (by decide)⟩, name repository⟩, literal (by decide)⟩

/-- The marks of a sentence are not taken for a part of the number. -/
theorem dropEndWhile_spelling {marks : List Char}
    (sentence : ∀ c ∈ marks, isSentenceMark c = true) :
    dropEndWhile isSentenceMark (reference.spelling ++ marks) = reference.spelling := by
  obtain ⟨c, last, digit⟩ := reference.numeral.spells.getLast?
  rw [dropEndWhile_append _ _ sentence]
  refine dropEndWhile_eq_self _ ?_
  rw [spelling, List.getLast?_append_of_ne_nil _ reference.numeral.spelled.nonempty, last]
  rintro _ ⟨⟩
  simp [isSentenceMark, ne_of_isDigit digit (show '.'.isDigit = false by decide),
    ne_of_isDigit digit (show ':'.isDigit = false by decide)]

end Reference

theorem colon_mem_of_isFullUrl {reference : List Char} (full : isFullUrl reference = true) :
    ':' ∈ reference := by
  simp only [isFullUrl, Bool.or_eq_true, Option.isSome_iff_exists, after?_eq_some_iff] at full
  rcases full with ⟨rest, rfl⟩ | ⟨rest, rfl⟩ <;> simp

theorem isFullUrl_spelled (url : EntityUrl) (number : List Char) :
    isFullUrl (url.spelled number) = true := by
  simp only [isFullUrl, EntityUrl.spelled, Bool.or_eq_true, Option.isSome_iff_exists,
    after?_eq_some_iff]
  cases url.scheme with
  | http => exact Or.inl (by simp [Scheme.name, EntityUrl.schemeMark])
  | https => exact Or.inr (by simp [Scheme.name, EntityUrl.schemeMark])

/-- In a short form, the path in front of the number decides. -/
theorem resolve?_path (pullRequest : EntityUrl) (numeral : Numeral) {path : List Char}
    (noColon : ':' ∉ path) (noHash : '#' ∉ path) :
    resolve? pullRequest (path ++ '#' :: numeral.digits) =
      if path.isEmpty then
        some (pullRequest.siblingIssue pullRequest.owner pullRequest.repository numeral.number)
      else (cutAt? ['/'] path).bind fun (owner, repository) =>
        if owner.isEmpty || repository.isEmpty || repository.contains '/' then none
        else some (pullRequest.siblingIssue (String.ofList owner) (String.ofList repository)
          numeral.number) := by
  have short : isFullUrl (path ++ '#' :: numeral.digits) = false := by
    refine Bool.eq_false_iff.mpr fun full => ?_
    rcases List.mem_append.mp (colon_mem_of_isFullUrl full) with inPath | inNumber
    · exact noColon inPath
    · rcases List.mem_cons.mp inNumber with same | inDigits
      · exact absurd same (by decide)
      · exact numeral.spells.not_mem (by decide) (by decide) inDigits
  have cut : cutAt? ['#'] (path ++ '#' :: numeral.digits) = some (path, numeral.digits) :=
    cutAt?_append noHash [] _
  simp [resolve?, short, cut, numeral.positive?_digits]

theorem resolve?_spelling (pullRequest : EntityUrl) (reference : Reference) :
    resolve? pullRequest reference.spelling = some (reference.issue pullRequest) := by
  cases reference with
  | number numeral =>
    have spelling : (Reference.number numeral).spelling = [] ++ '#' :: numeral.digits := by
      simp [Reference.spelling, Reference.lead, Reference.numeral]
    rw [spelling, resolve?_path pullRequest numeral List.not_mem_nil List.not_mem_nil]
    rfl
  | short owner repository numeral =>
    have spelling : (Reference.short owner repository numeral).spelling =
        (owner.text.toList ++ '/' :: repository.text.toList) ++ '#' :: numeral.digits := by
      simp [Reference.spelling, Reference.lead, Reference.numeral]
    have absent : ∀ c, isNameCharacter c = false → c ≠ '/' →
        c ∉ owner.text.toList ++ '/' :: repository.text.toList := fun c other slash => by
      simp [not_mem_name owner other, not_mem_name repository other, slash]
    have path : cutAt? ['/'] (owner.text.toList ++ '/' :: repository.text.toList) =
        some (owner.text.toList, repository.text.toList) :=
      cutAt?_append (not_mem_name owner (by decide)) [] _
    have noSlash : '/' ∉ repository.text.toList := not_mem_name repository (by decide)
    rw [spelling, resolve?_path pullRequest numeral (absent ':' (by decide) (by decide))
      (absent '#' (by decide) (by decide)), path]
    simp [owner.nonempty, repository.nonempty, noSlash, Reference.issue]
  | full scheme host owner repository numeral =>
    have canonical : ((Reference.full scheme host owner repository numeral).issue
        pullRequest).Canonical := ⟨isSegment_host host, isSegment_name owner,
      isSegment_name repository, numeral.positive, numeral.small⟩
    have spelling : (Reference.full scheme host owner repository numeral).spelling =
        ((Reference.full scheme host owner repository numeral).issue pullRequest).spelled
          numeral.digits := by
      simp [Reference.spelling, Reference.lead, Reference.numeral, Reference.issue,
        EntityUrl.spelled, EntityUrl.segments, EntityUrl.schemeMark, EntityKind.segment,
        List.intercalate]
    rw [spelling, resolve?_full pullRequest (isFullUrl_spelled _ _)]
    exact EntityUrl.ofText?_spelled canonical numeral.spells

/-! ## Descriptions -/

/-- A description with a closing reference somewhere in it. Another one may start earlier. -/
structure Mention where
  before : List Char
  keyword : List Char
  gap : List Char
  reference : Reference
  marks : List Char
  after : List Char
  known : keyword.map fold ∈ keywords
  spaced : gap ≠ []
  blank : ∀ c ∈ gap, isBlank c = true
  sentence : ∀ c ∈ marks, isSentenceMark c = true
  stops : ∀ c ∈ after.head?, isReferenceChar c = false

def Mention.description (mention : Mention) : List Char :=
  mention.before ++ (mention.keyword ++ (mention.gap ++
    (mention.reference.spelling ++ mention.marks ++ mention.after)))

/-- A keyword may end a longer word, and letters outside ASCII may fold to its letters. -/
def unfixing : Mention where
  before := "It closes, or un".toList
  keyword := "FIXE\u017f".toList
  gap := "\u00a0\n".toList
  reference := .short ⟨"octo", by decide, List.all_eq_true.mp (by decide)⟩
    ⟨"other", by decide, List.all_eq_true.mp (by decide)⟩
    ⟨['0', '0', '7'], 7, ⟨by decide, List.all_eq_true.mp (by decide), by decide⟩, by decide,
      by decide⟩
  marks := ".:".toList
  after := ", later".toList
  known := by decide
  spaced := by decide
  blank := List.all_eq_true.mp (by decide)
  sentence := List.all_eq_true.mp (by decide)
  stops := by rintro _ ⟨⟩; decide

theorem Mention.closing (mention : Mention) : Closing mention.keyword mention.gap
    (mention.reference.spelling ++ mention.marks) where
  known := mention.known
  spaced := mention.spaced
  blank := mention.blank
  nonempty := by
    simp [Reference.spelling, mention.reference.numeral.spelled.nonempty]
  allowed := List.forall_mem_append.mpr
    ⟨mention.reference.isReferenceChar_of_mem_spelling, fun c member => by
      have mark := mention.sentence c member
      simp only [isSentenceMark, Bool.or_eq_true, beq_iff_eq] at mark
      rcases mark with rfl | rfl <;> decide⟩

theorem Mention.first?_description (mention : Mention)
    (unclosed : ∀ start < mention.before.length, ¬ Closes (mention.description.drop start)) :
    first? mention.description = some (mention.reference.spelling ++ mention.marks) := by
  have ends : mention.after.takeWhile isReferenceChar = [] := by
    cases after : mention.after with
    | nil => rfl
    | cons c rest =>
      have stops : isReferenceChar c = false := mention.stops c (by rw [after]; rfl)
      exact List.takeWhile_cons_of_neg (by simp [stops])
  have closes : Closes (mention.keyword ++ (mention.gap ++
      (mention.reference.spelling ++ mention.marks ++ mention.after))) :=
    ⟨_, _, _, _, mention.closing, rfl⟩
  rw [Mention.description, first?_append unclosed, first?_of_closes closes,
    mention.closing.referred_eq, ends, List.append_nil]

end ClosingReference

namespace EntityUrl

open ClosingReference

/-- The first closing reference of a description decides, and its sentence may go on behind it.
Without one the pull request stands for the issue of its own number. -/
theorem referencedIssue?_first (pullRequest : EntityUrl) :
    (∀ mention : Mention,
      (∀ start < mention.before.length, ¬ Closes (mention.description.drop start)) →
        pullRequest.referencedIssue? (String.ofList mention.description) =
          some (mention.reference.issue pullRequest)) ∧
      ∀ description : String, (∀ start, ¬ Closes (description.toList.drop start)) →
        pullRequest.referencedIssue? description = none ∧
          pullRequest.linkedIssue (some description) = pullRequest.toIssue := by
  refine ⟨fun mention unclosed => ?_, fun description unclosed => ?_⟩
  · rw [referencedIssue?, String.toList_ofList, mention.first?_description unclosed]
    change resolve? pullRequest (dropEndWhile isSentenceMark _) = _
    rw [mention.reference.dropEndWhile_spelling mention.sentence, resolve?_spelling]
  · have none : pullRequest.referencedIssue? description = none := by
      rw [referencedIssue?, first?_eq_none_iff.mpr unclosed]
      rfl
    exact ⟨none, by simp [linkedIssue, none]⟩

theorem referencedIssue?_first_unfixing :
    referencedIssue? ⟨.https, "github.com", "octo", "demo", .pullRequest, 5⟩
        "It closes, or unFIXE\u017f\u00a0\nocto/other#007.:, later" =
      some ⟨.https, "github.com", "octo", "other", .issue, 7⟩ ∧
    linkedIssue ⟨.https, "github.com", "octo", "demo", .pullRequest, 5⟩ (some "A prefix: #7") =
      ⟨.https, "github.com", "octo", "demo", .issue, 5⟩ := by
  have text : String.ofList unfixing.description =
      "It closes, or unFIXE\u017f\u00a0\nocto/other#007.:, later" := by decide +kernel
  exact ⟨text ▸ (referencedIssue?_first _).1 unfixing (by decide +kernel),
    ((referencedIssue?_first _).2 "A prefix: #7" (first?_eq_none_iff.mp (by decide +kernel))).2⟩

end EntityUrl

end BoardRules
