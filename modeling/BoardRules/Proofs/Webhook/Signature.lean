import BoardRules.Proofs.Text.Hex
import BoardRules.Proofs.Text.Pieces
import BoardRules.Webhook.Signature

/-!
# Signatures that are accepted

A header attests a body if it consists, up to blanks around it, of the name of the digest and of the
digits of the body's digest, in either case. `verify_iff_attests` says that a delivery is accepted
with such a header and with no other. So the body's own signature is accepted, digits that are
missing or added are noticed, and one header attests bodies of one digest only.
-/
namespace BoardRules.Signature

open Text

/-- The header names the digest and spells it in 64 digits. -/
def Attests (secret : String) (header : List Char) (body : List UInt8) : Prop :=
  ∃ digits, Trimmed header ("sha256=".toList ++ digits) ∧ digits.length = 64 ∧
    Hex.Spells digits (digest secret body)

variable {secret : String} {body : List UInt8}

theorem length_digest (secret : String) (body : List UInt8) : (digest secret body).length = 32 :=
  Digest.length_hmac _ _

theorem digest?_eq_some_iff {header : List Char} {bytes : List UInt8} :
    digest? header = some bytes ↔
      ∃ digits, Trimmed header ("sha256=".toList ++ digits) ∧ Hex.Spells digits bytes := by
  rw [digest?, Option.bind_eq_bind, Option.bind_eq_some_iff]
  refine exists_congr fun digits => and_congr ?_ Hex.decode?_eq_some_iff
  exact (after?_eq_some_iff _ _ _).trans trim_eq_iff

theorem verify_eq_true_iff {header : Option (List Char)} :
    verify secret header body = true ↔ ∃ text, header = some text ∧
      digest? text = some (digest secret body) := by
  rw [verify, beq_iff_eq, Option.bind_eq_some_iff]

theorem attests_iff {header : List Char} :
    Attests secret header body ↔ digest? header = some (digest secret body) := by
  rw [digest?_eq_some_iff]
  constructor
  · rintro ⟨digits, trimmed, _, spells⟩
    exact ⟨digits, trimmed, spells⟩
  · rintro ⟨digits, trimmed, spells⟩
    exact ⟨digits, trimmed, by rw [spells.length_eq, length_digest], spells⟩

/-- There are no blanks around the name of the digest and its digits. -/
theorem trimmed_of_spells {digits : List Char} {bytes : List UInt8}
    (spells : Hex.Spells digits bytes) :
    Trimmed ("sha256=".toList ++ digits) ("sha256=".toList ++ digits) := by
  refine trim_eq_iff.mp (trim_eq_self _ ?_ ?_)
  · rintro _ ⟨⟩
    decide
  · intro c last
    rcases List.mem_append.mp (List.mem_of_getLast? last) with named | digit
    · have visible : "sha256=".toList.all (!isBlank ·) = true := by decide
      simpa using List.all_eq_true.mp visible c named
    · exact spells.isBlank_eq_false c digit

/-- A delivery is accepted if its header attests its body, and in no other case. -/
theorem verify_iff_attests (secret : String) (body : List UInt8) :
    (∀ header, verify secret header body = true ↔
      ∃ text, header = some text ∧ Attests secret text body) ∧
    verify secret (some (sign secret body)) body = true ∧
    (∀ text digits, Trimmed text ("sha256=".toList ++ digits) → digits.length ≠ 64 →
      verify secret (some text) body = false) ∧
    ∀ header other, verify secret header body = true → verify secret header other = true →
      digest secret body = digest secret other := by
  have accepted (header : Option (List Char)) : verify secret header body = true ↔
      ∃ text, header = some text ∧ Attests secret text body := by
    simp only [verify_eq_true_iff, attests_iff]
  refine ⟨accepted, ?_, ?_, ?_⟩
  · have spells := Hex.spells_encode (digest secret body)
    refine (accepted _).mpr ⟨_, rfl, _, trimmed_of_spells spells, ?_, spells⟩
    rw [spells.length_eq, length_digest]
  · intro text digits trimmed wrong
    rw [← Bool.not_eq_true, accepted]
    rintro ⟨_, ⟨⟩, others, trimmed', length, _⟩
    have same := (trim_eq_iff.mpr trimmed).symm.trans (trim_eq_iff.mpr trimmed')
    rw [List.append_cancel_left same] at wrong
    exact wrong length
  · intro header other first second
    obtain ⟨text, rfl, read⟩ := verify_eq_true_iff.mp first
    obtain ⟨_, ⟨⟩, readAgain⟩ := verify_eq_true_iff.mp second
    exact Option.some.inj (read.symm.trans readAgain)

/-- Capital letters and blanks around the header do no harm; a missing digit does. -/
theorem verify_iff_attests_capitals :
    let body := Utf8.encode "The quick brown fox jumps over the lazy dog".toList
    let digits := "F7BC83F430538424B13298E6AA6FB143EF4D59A14946175997479DBC2D1A3CD8".toList
    verify "key" (some ("\tsha256=".toList ++ digits ++ " ".toList)) body = true ∧
      verify "key" (some ("sha256=".toList ++ digits.dropLast)) body = false := by
  intro body digits
  have exact := verify_iff_attests "key" body
  have spells : Hex.Spells digits (digest "key" body) :=
    Hex.decode?_eq_some_iff.mp (by decide +kernel)
  refine ⟨(exact.1 _).mpr ⟨_, rfl, digits, ?_, by decide, spells⟩,
    exact.2.2.1 _ digits.dropLast ?_ (by decide)⟩
  · exact trim_eq_iff.mp (by decide +kernel)
  · exact trim_eq_iff.mp (by decide +kernel)

end BoardRules.Signature
