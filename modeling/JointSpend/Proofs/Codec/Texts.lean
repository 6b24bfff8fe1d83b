import JointSpend.Proofs.Text.Blanks
import JointSpend.Proofs.Text.Spellings
import JointSpend.Psbt.Exchange

set_option autoImplicit false
set_option relaxedAutoImplicit false

/-!
# What a text stands for

A text stands for bytes when, blanks aside, it is their spelling. As every byte string has one
spelling, texts that stand for the same bytes differ in their blanks only. A text that is no
spelling is refused, and it is known by the rules of the format.

## Main results

* `JointSpend.Psbt.bytesOfText_eq_ok_iff` — the texts that stand for given bytes.
* `JointSpend.Psbt.bytesOfText_exact` — texts and bytes correspond, blanks aside.
-/

namespace JointSpend.Psbt

open Text

variable {text : String} {bs : Bytes}

/-- The bytes of a spelling, which is ASCII. -/
private theorem utf8_encode (bs : Bytes) : utf8 (Base64.encode bs) = Base64.encodeBytes bs :=
  utf8_ofAscii fun _ hb => (Base64.isPlain_of_mem_encodeBytes hb).1

/-- There are no blanks in a spelling. -/
theorem filter_encodeBytes (bs : Bytes) :
    (Base64.encodeBytes bs).filter (! isAsciiBlank ·) = Base64.encodeBytes bs := by
  apply List.filter_eq_self.mpr
  intro b hb
  simp [(Base64.isPlain_of_mem_encodeBytes hb).2]

/-- A text stands for what is read of its bytes without the blanks. -/
theorem bytesOfText_eq_ok_iff_decode : bytesOfText text = .ok bs ↔
    Base64.decode ((utf8 text).filter (! isAsciiBlank ·)) = .ok bs := by
  unfold bytesOfText
  cases Base64.decode ((utf8 text).filter (! isAsciiBlank ·)) with
  | ok cs => simp
  | error fault => simp

/-- **The texts that stand for given bytes** are their spelling, blanks aside. -/
theorem bytesOfText_eq_ok_iff :
    bytesOfText text = .ok bs ↔ withoutBlanks text = Base64.encode bs := by
  rw [bytesOfText_eq_ok_iff_decode, Base64.decode_eq_ok_iff, ← utf8_withoutBlanks, ← utf8_encode]
  constructor
  · exact utf8_injective
  · intro h
    rw [h]

/-- A text that stands for nothing is refused for a fault of its spelling. -/
private theorem exists_badText_iff :
    (∃ fault, bytesOfText text = .error (.badText fault)) ↔ ∀ bs, bytesOfText text ≠ .ok bs := by
  unfold bytesOfText
  cases Base64.decode ((utf8 text).filter (! isAsciiBlank ·)) with
  | ok cs => simp
  | error fault => simp

/-- A spelling with blanks put in is the spelling again without them. -/
private theorem withoutBlanks_of_spaced
    (h : Spaced isBlankChar (Base64.encode bs).toList text.toList) :
    withoutBlanks text = Base64.encode bs := by
  have hplain : withoutBlanks (Base64.encode bs) = Base64.encode bs := by
    apply utf8_injective
    rw [utf8_withoutBlanks, utf8_encode, filter_encodeBytes]
  rw [withoutBlanks, h.filter_eq, ← withoutBlanks, hplain]

/-- **Texts and bytes correspond, blanks aside.** A text stands for bytes exactly when, without its
blanks, it is their spelling; every other text is refused as no base64. The spellings are the texts
that keep the rules of the format. So blanks may be put into a spelling anywhere, and texts that
differ in more than their blanks do not stand for the same bytes. -/
theorem bytesOfText_exact (text : String) :
    (∀ bs, bytesOfText text = .ok bs ↔ withoutBlanks text = Base64.encode bs) ∧
    ((∃ fault, bytesOfText text = .error (.badText fault)) ↔
      ∀ bs, withoutBlanks text ≠ Base64.encode bs) ∧
    (Base64.WellSpelled (utf8 (withoutBlanks text)) ↔
      ∃ bs, withoutBlanks text = Base64.encode bs) ∧
    (∀ bs, Spaced isBlankChar (Base64.encode bs).toList text.toList →
      bytesOfText text = .ok bs) ∧
    ∀ other bs, bytesOfText text = .ok bs → bytesOfText other = .ok bs →
      withoutBlanks text = withoutBlanks other := by
  refine ⟨fun bs => bytesOfText_eq_ok_iff, ?_, ?_, fun bs h => ?_, fun other bs h h' => ?_⟩
  · rw [exists_badText_iff]
    simp only [ne_eq, bytesOfText_eq_ok_iff]
  · rw [Base64.wellSpelled_iff]
    apply exists_congr
    intro bs
    rw [← utf8_encode]
    exact ⟨utf8_injective, congrArg utf8⟩
  · exact bytesOfText_eq_ok_iff.mpr (withoutBlanks_of_spaced h)
  · rw [bytesOfText_eq_ok_iff.mp h, bytesOfText_eq_ok_iff.mp h']

/-- The spelling of one byte, with a blank in its middle and a line feed before its padding. -/
def sampleText : String :=
  String.ofList ['T', ' ', 'Q', '\n', '=', '=']

/-- The text stands for the byte, as the spelling without blanks does. -/
theorem bytesOfText_exact_sampleText :
    Spaced isBlankChar (Base64.encode [77]).toList sampleText.toList ∧
      bytesOfText sampleText = .ok [77] ∧ bytesOfText (Base64.encode [77]) = .ok [77] ∧
      withoutBlanks sampleText = withoutBlanks (Base64.encode [77]) := by
  have hspaced : Spaced isBlankChar (Base64.encode [77]).toList sampleText.toList := by
    rw [Base64.encode, ofAscii, sampleText, String.toList_ofList, String.toList_ofList]
    exact .keep 'T' (.putIn rfl (.keep 'Q' (.putIn rfl (.refl ['=', '=']))))
  have hread := (bytesOfText_exact sampleText).2.2.2.1 [77] hspaced
  have hplain := (bytesOfText_exact (Base64.encode [77])).2.2.2.1 [77] (.refl _)
  exact ⟨hspaced, hread, hplain, (bytesOfText_exact sampleText).2.2.2.2 _ _ hread hplain⟩

end JointSpend.Psbt
