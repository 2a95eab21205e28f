import BoardRules.Proofs.Entity.Canonical

/-!
# The grammar of URLs

A text is read as a URL if it names it: without the blanks around it, and then without the slashes
at its end, it consists of a scheme, a host, an owner, a repository, a kind and a number.
`parse_ok_iff_names` says that no other text is read, that the URL has the parts that the text
names, and that a text which names nothing is refused as it came.
-/
namespace BoardRules

open Text

inductive Scheme.Written : Scheme → List Char → Prop where
  | http : Written .http "http".toList
  | https : Written .https "https".toList

inductive EntityKind.Written : EntityKind → List Char → Prop where
  | issue : Written .issue "issues".toList
  | pullRequest : Written .pullRequest "pull".toList

theorem Scheme.written_iff {scheme : Scheme} {text : List Char} :
    scheme.Written text ↔ text = scheme.name.toList := by
  constructor
  · rintro (_ | _) <;> rfl
  · rintro rfl
    cases scheme with
    | http => exact .http
    | https => exact .https

theorem EntityKind.written_iff {kind : EntityKind} {text : List Char} :
    kind.Written text ↔ text = kind.segment.toList := by
  constructor
  · rintro (_ | _) <;> rfl
  · rintro rfl
    cases kind with
    | issue => exact .issue
    | pullRequest => exact .pullRequest

namespace EntityUrl

/-- A text that consists of the parts of the URL, with the number in any spelling. -/
structure Spelling (url : EntityUrl) (text : List Char) : Prop where
  host : IsSegment url.host.toList
  owner : IsSegment url.owner.toList
  repository : IsSegment url.repository.toList
  parts : ∃ scheme kind number, url.scheme.Written scheme ∧ url.kind.Written kind ∧
    Decimal.Spells number url.number ∧
      text = scheme ++ "://".toList ++ url.host.toList ++ "/".toList ++ url.owner.toList ++
        "/".toList ++ url.repository.toList ++ "/".toList ++ kind ++ "/".toList ++ number
  positive : 1 ≤ url.number
  small : url.number ≤ 2 ^ 64 - 1

/-- Blanks around the spelling do not count, nor do slashes between it and the blanks behind. -/
def Names (url : EntityUrl) (text : List Char) : Prop :=
  ∃ visible core, Trimmed text visible ∧ TrimmedEnd (· == '/') visible core ∧ url.Spelling core

variable {url : EntityUrl} {text : List Char}

theorem spelled_eq (url : EntityUrl) (number : List Char) :
    url.spelled number = url.scheme.name.toList ++ "://".toList ++ url.host.toList ++ "/".toList ++
      url.owner.toList ++ "/".toList ++ url.repository.toList ++ "/".toList ++
      url.kind.segment.toList ++ "/".toList ++ number := by
  simp [spelled, segments, schemeMark, List.intercalate]

theorem spelling_iff : url.Spelling text ↔
    url.Canonical ∧ ∃ number, Decimal.Spells number url.number ∧ text = url.spelled number := by
  have bound : url.number < Decimal.wordBound ↔ url.number ≤ 2 ^ 64 - 1 := by
    change url.number < 2 ^ 64 ↔ _
    omega
  constructor
  · rintro ⟨host, owner, repository, ⟨scheme, kind, number, known, sort, spells, joined⟩, positive,
      small⟩
    obtain rfl := Scheme.written_iff.mp known
    obtain rfl := EntityKind.written_iff.mp sort
    exact ⟨⟨host, owner, repository, positive, bound.mpr small⟩, number, spells,
      joined.trans (url.spelled_eq number).symm⟩
  · rintro ⟨⟨host, owner, repository, positive, small⟩, number, spells, joined⟩
    exact ⟨host, owner, repository, ⟨_, _, number, Scheme.written_iff.mpr rfl,
      EntityKind.written_iff.mpr rfl, spells, joined.trans (url.spelled_eq number)⟩, positive,
      bound.mp small⟩

theorem names_iff : url.Names text ↔ url.Spelling (dropEndWhile (· == '/') (trim text)) := by
  constructor
  · rintro ⟨visible, core, trimmed, cut, spelling⟩
    rw [trim_eq_iff.mpr trimmed, dropEndWhile_eq_iff.mpr cut]
    exact spelling
  · intro spelling
    exact ⟨_, _, trimmed_trim text, trimmedEnd_dropEndWhile _ _, spelling⟩

theorem ofText?_eq_some_iff_names : ofText? text = some url ↔ url.Names text := by
  rw [ofText?_eq_some_iff, names_iff, spelling_iff]

theorem ofText?_eq_none_iff : ofText? text = none ↔ ∀ url : EntityUrl, ¬url.Names text := by
  rw [Option.eq_none_iff_forall_ne_some]
  exact forall_congr' fun url => not_congr ofText?_eq_some_iff_names

theorem parse_eq_error_iff {text : String} {error : InputError} :
    parse text = .error error ↔ error = .invalidEntityUrl text ∧ ofText? text.toList = none := by
  rw [parse]
  cases ofText? text.toList <;> simp [eq_comm]

/-- The texts that name a URL are read as this URL. All other texts are refused, and the error
holds the whole text. -/
theorem parse_ok_iff_names (text : String) :
    (∀ url, parse text = .ok url ↔ url.Names text.toList) ∧
      ∀ error, parse text = .error error ↔
        error = .invalidEntityUrl text ∧ ∀ url : EntityUrl, ¬url.Names text.toList := by
  refine ⟨fun url => ?_, fun error => ?_⟩
  · rw [parse_eq_ok_iff, ofText?_eq_some_iff_names]
  · rw [parse_eq_error_iff, ofText?_eq_none_iff]

/-- The largest number, with a sign and a zero in front, then slashes and blanks. -/
example : parse "\t https://github.com/octo/demo/pull/+018446744073709551615//\n" =
    .ok ⟨.https, "github.com", "octo", "demo", .pullRequest, 18446744073709551615⟩ := by
  decide +kernel

/-- Blanks in front of the slashes stay. -/
example : parse "https://github.com/octo/demo/issues/7 /" =
    .error (.invalidEntityUrl "https://github.com/octo/demo/issues/7 /") := by
  decide +kernel

end EntityUrl

end BoardRules
