import PadScript.Text.Basic

/-!
# Texts as bytes

`Text.toUtf8` writes a text as UTF-8, and `Text.ofUtf8?` reads one back. Reading refuses every byte
string that is not the UTF-8 of a text: stray and missing continuation bytes, overlong forms and
surrogates.

`Text.ofUtf8?_eq_some_iff` says that reading undoes writing, and accepts nothing else.
-/

namespace PadScript.Text

/-- The bytes of a text. -/
def toUtf8 (t : Text) : List UInt8 := t.flatMap String.utf8EncodeChar

/-- The text with these bytes, if they are well-formed. -/
def ofUtf8? (bytes : List UInt8) : Option Text :=
  (String.fromUTF8? ⟨bytes.toArray⟩).map String.toList

theorem ofUtf8?_toUtf8 (t : Text) : ofUtf8? (toUtf8 t) = some t := by
  have hbytes : (⟨(toUtf8 t).toArray⟩ : ByteArray) = (String.ofList t).toByteArray :=
    ByteArray.ext (by simp [toUtf8, List.utf8Encode])
  rw [ofUtf8?, hbytes, String.fromUTF8?]
  split
  next => exact congrArg some String.toList_ofList
  next hvalid => exact absurd (String.ofList t).isValidUTF8 (by simpa using hvalid)

/-- No text is written in two ways. -/
theorem ofUtf8?_inj {bytes bytes' : List UInt8} {t : Text} (h : ofUtf8? bytes = some t)
    (h' : ofUtf8? bytes' = some t) : bytes = bytes' := by
  obtain ⟨s, hs, hst⟩ := Option.map_eq_some_iff.1 h
  obtain ⟨s', hs', hst'⟩ := Option.map_eq_some_iff.1 h'
  obtain rfl := String.toList_inj.1 (hst.trans hst'.symm)
  simp only [String.fromUTF8?] at hs hs'
  split at hs
  next =>
    split at hs'
    next =>
      have hstring := (Option.some.inj hs).trans (Option.some.inj hs').symm
      simpa [String.fromUTF8] using hstring
    next => cases hs'
  next => cases hs

/-- Reading accepts what writing gives, and nothing else. -/
theorem ofUtf8?_eq_some_iff {bytes : List UInt8} {t : Text} :
    ofUtf8? bytes = some t ↔ bytes = toUtf8 t :=
  ⟨fun h => ofUtf8?_inj h (ofUtf8?_toUtf8 t), fun h => h ▸ ofUtf8?_toUtf8 t⟩

end PadScript.Text
