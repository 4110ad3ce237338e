/-
  The keys of directory rows, internal/web/ldap.go: `encodeDirectoryKey` and
  `decodeDirectoryKey`. A row of the directory page links to its user or group by the key.

  * `directory_keys`: the key of every name that the directory client takes is read back, is no
    other name's key, and stands in a path as it is.
-/
import OpenHpcWeb.Go.Base64
import OpenHpcWeb.Ldap.Client

namespace OpenHpcWeb.Web

open OpenHpcWeb.Go OpenHpcWeb.Ldap
open OpenHpcWeb.Go.Bytes (encode decode decode_encode length_encode encode_of_decode)

def encodeDirectoryKey (value : String) : List UInt8 := rawURLEncode (encode value)

def decodeDirectoryKey (value : List UInt8) : Except String String :=
  if value.length = 0 ∨ 192 < value.length then .error "directory key is invalid"
  else
    match rawURLDecode value with
    | none => .error "directory key is invalid"
    | some decoded =>
      if decoded.length = 0 ∨ 128 < decoded.length then .error "directory key is invalid"
      else
        match decode decoded with
        | none => .error "directory key is invalid"
        | some text =>
          if text.toList.any isControl then .error "directory key is invalid" else .ok text

theorem validateDirectoryName_ok_iff {value : String} :
    validateDirectoryName value = .ok () ↔
      byteLen value ≠ 0 ∧ byteLen value ≤ 128 ∧ value.toList.any isControl = false := by
  unfold validateDirectoryName
  split
  · next hlen => exact iff_of_false (fun h => nomatch h) (by omega)
  · next hlen =>
    rw [not_or, Nat.not_lt] at hlen
    split
    · next hcontrol =>
      refine iff_of_false (fun h => nomatch h) fun h => ?_
      rw [hcontrol] at h
      exact Bool.noConfusion h.2.2
    · next hcontrol => exact iff_of_true rfl ⟨hlen.1, hlen.2, by simpa using hcontrol⟩

theorem encodeDirectoryKey_injective : Function.Injective encodeDirectoryKey := by
  intro value value' h
  have hbytes := rawURLEncode_injective h
  have hread := decode_encode value
  rw [hbytes, decode_encode] at hread
  exact (Option.some.inj hread).symm

theorem decodeDirectoryKey_encode {name : String} (h : validateDirectoryName name = .ok ()) :
    decodeDirectoryKey (encodeDirectoryKey name) = .ok name := by
  obtain ⟨hne, hle, hcontrol⟩ := validateDirectoryName_ok_iff.mp h
  have hlen : (encodeDirectoryKey name).length = byteLen name + (byteLen name + 2) / 3 := by
    rw [encodeDirectoryKey, length_rawURLEncode, length_encode]
  unfold decodeDirectoryKey
  rw [if_neg (by omega), encodeDirectoryKey, rawURLDecode_rawURLEncode]
  dsimp only
  rw [if_neg (by rw [length_encode]; omega), decode_encode]
  dsimp only
  rw [if_neg (by simp [hcontrol])]

/-- Every row of the directory can be opened by its key. -/
theorem directory_keys (name : String) (h : validateDirectoryName name = .ok ()) :
    decodeDirectoryKey (encodeDirectoryKey name) = .ok name ∧
      (∀ other, validateDirectoryName other = .ok () → other ≠ name →
        encodeDirectoryKey other ≠ encodeDirectoryKey name) ∧
      pathEscape (encodeDirectoryKey name) = encodeDirectoryKey name ∧
      ∀ b ∈ encodeDirectoryKey name, shouldEscape b = false := by
  have hunreserved := unreserved_rawURLEncode (encode name)
  refine ⟨decodeDirectoryKey_encode h, fun other _ hne heq => ?_,
    pathEscape_of_unreserved hunreserved, hunreserved⟩
  exact hne (encodeDirectoryKey_injective heq)

theorem directory_keys_alice :
    decodeDirectoryKey (encodeDirectoryKey "alice") = .ok "alice" ∧
      (∀ other, validateDirectoryName other = .ok () → other ≠ "alice" →
        encodeDirectoryKey other ≠ encodeDirectoryKey "alice") ∧
      pathEscape (encodeDirectoryKey "alice") = encodeDirectoryKey "alice" ∧
      ∀ b ∈ encodeDirectoryKey "alice", shouldEscape b = false :=
  directory_keys "alice" (validateDirectoryName_ok_iff.mpr ⟨by decide, by decide, by decide⟩)

end OpenHpcWeb.Web
