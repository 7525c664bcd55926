import Quorum.Proofs.Layout

/-!
# Object keys as an encoding

The object key of an artifact of a version is `<chain>/<key>/<index>/<name>`. Reading keys undoes
writing them: the key of the payload, of the metadata or of a signature under a name that signing
accepts reads back as that artifact of that version, and a key that reads as an artifact is that
artifact's key, so no two keys read as one artifact and neither `007` nor `+7` aliases version 7.
A key reads as nothing exactly when it ends in `/`.

The prefixes of versions never nest in keys: the key of an artifact lies under the prefix of its
own version only, and a queue places it in its version when the version is the queue's and refuses
it as outside its prefix otherwise.
-/

namespace Quorum

-- the files of a version: the payload, the metadata, and a signature under an accepted name
theorem Artifact.valid_of_file {a : Artifact}
    (h : a = .unsigned ∨ a = .signdata ∨ ∃ n f, a = .signature n ∧ Artifact.signature? n = .ok f) :
    a.Valid := by
  rcases h with rfl | rfl | ⟨n, f, rfl, hf⟩
  · exact Artifact.valid_unsigned
  · exact Artifact.valid_signdata
  · have hvalid := Artifact.valid_of_signature? hf
    rwa [Artifact.eq_signature_of_signature? hf] at hvalid

namespace ObjectPath

theorem parse_eq_none_iff {key : String} : parse key = .ok none ↔ endsInSlash key = true := by
  refine ⟨endsInSlash_of_parse, fun h => ?_⟩
  rw [parse, if_pos h]

theorem eq_of_parse_eq {s t : String} {p : ObjectPath} (hs : parse s = .ok (some p))
    (ht : parse t = .ok (some p)) : s = t :=
  (render_of_parse hs).symm.trans (render_of_parse ht)

end ObjectPath

theorem Queue.placement_of_not_isPrefixOf {q : Queue} {key : String}
    (h : ¬ q.pre.isPrefixOf key) : q.placement key = .error (.outsidePrefix key q.pre) := by
  have hstrip : stripPrefix? key q.pre = none := by
    rw [stripPrefix?, if_neg]
    rwa [isPrefixOf_iff, ← List.isPrefixOf_iff_prefix] at h
  rw [Queue.placement, hstrip]

theorem Queue.placement_path_eq (q : Queue) (w : Version) {a : Artifact} (ha : a.Valid) :
    q.placement (w.path a) =
      if w.queue = q then .ok (.version w.index) else .error (.outsidePrefix (w.path a) q.pre) := by
  split
  case isTrue hq =>
    subst hq
    exact Queue.placement_path w ha
  case isFalse hq =>
    exact Queue.placement_of_not_isPrefixOf (mt Version.isPrefixOf_path_iff.mp hq)

/-- Object keys encode the artifacts of versions without loss and without overlap: the key of a
file reads back as that file of that version; a key that reads as an artifact is the artifact's
key, and no other key reads as it; a key reads as nothing exactly when it ends in `/`; no key of a
version starts with the prefix of another version; and a queue places a file's key in its version
when the version is the queue's and refuses it as outside its prefix otherwise. -/
theorem ObjectPath.path_encoding_invertible_prefix_free :
    (∀ (q : Queue) (i : UInt64) (a : Artifact),
        (a = .unsigned ∨ a = .signdata ∨ ∃ n f, a = .signature n ∧ Artifact.signature? n = .ok f) →
        parse ((q.version i).path a) = .ok (some ⟨q.version i, a⟩)) ∧
    (∀ (s : String) (p : ObjectPath), parse s = .ok (some p) →
        p.render = s ∧ ∀ t, parse t = .ok (some p) → t = s) ∧
    (∀ s : String, parse s = .ok none ↔ endsInSlash s = true) ∧
    (∀ (v w : Version) (a : Artifact), v ≠ w → ¬ v.pre.isPrefixOf (w.path a)) ∧
    (∀ (q : Queue) (w : Version) (a : Artifact),
        (a = .unsigned ∨ a = .signdata ∨ ∃ n f, a = .signature n ∧ Artifact.signature? n = .ok f) →
        q.placement (w.path a) = if w.queue = q then .ok (.version w.index)
          else .error (.outsidePrefix (w.path a) q.pre)) := by
  refine ⟨fun q i a ha => parse_path _ (Artifact.valid_of_file ha), fun s p hp => ?_,
    fun s => parse_eq_none_iff, fun v w a hvw hpre => ?_,
    fun q w a ha => Queue.placement_path_eq q w (Artifact.valid_of_file ha)⟩
  · exact ⟨render_of_parse hp, fun t ht => eq_of_parse_eq ht hp⟩
  · -- a key under the prefix of `v` is a key of `v`
    exact hvw (Version.eq_of_isPrefixOf_path hpre).symm

end Quorum
