import PrivatePresentation.Proofs.Curve.Spelling
import PrivatePresentation.Proofs.Groth16.RoundTrip

/-!
Artifacts have one spelling each, but for the coordinates of neutral elements.  Bytes come out as a
proof or as a key exactly if they spell it, and what is written of it is the spelling whose idle
coordinates are zero; an artifact without a neutral element is spelled as it is written.
-/

namespace PrivatePresentation

section Parts

variable {idle : Set Base} {front : Bytes}

namespace Proof

/-- The spellings of a proof: one of each of its points. -/
def spellings (idle : Set Base) (p : Proof) : Language UInt8 :=
  p.a.spellings idle * p.b.spellings idle * p.c.spellings idle

/-- No point of a proof is the neutral element. -/
structure Finite (p : Proof) : Prop where
  a : p.a ≠ .infinity
  b : p.b ≠ .infinity
  c : p.c ≠ .infinity

theorem reads : Proof.decode.Reads Valid (spellings Set.univ) := by
  intro bytes p rest
  constructor
  · intro h
    obtain ⟨a, as, _, ha, has, rfl, h1⟩ := G1.reads.of_bind h
    obtain ⟨b, bs, _, hb, hbs, rfl, h2⟩ := G2.reads.of_bind h1
    obtain ⟨c, cs, _, hc, hcs, rfl, h3⟩ := G1.reads.of_bind h2
    obtain ⟨rfl, rfl⟩ := Prod.mk.inj (Except.ok.inj h3)
    refine ⟨⟨ha, hb, hc⟩, as ++ bs ++ cs, ?_, ?_⟩
    · exact Language.append_mem_mul (Language.append_mem_mul has hbs) hcs
    · simp only [List.append_assoc]
  · rintro ⟨hp, _, ⟨_, ⟨as, has, bs, hbs, rfl⟩, cs, hcs, rfl⟩, rfl⟩
    rw [Proof.decode]
    simp only [List.append_assoc, G1.reads.read hp.a has, G2.reads.read hp.b hbs,
      G1.reads.read hp.c hcs, bind, Except.bind]
    rfl

/-- A proof whose idle coordinates, if it has any, are zero is spelled as it is written. -/
theorem spellings_eq {p : Proof} (h : p.Finite ∨ idle = {0}) : p.spellings idle = {p.encode} := by
  rw [spellings, G1.spellings_eq fun hp => h.resolve_left fun hfinite => hfinite.a hp,
    G2.spellings_eq fun hp => h.resolve_left fun hfinite => hfinite.b hp,
    G1.spellings_eq fun hp => h.resolve_left fun hfinite => hfinite.c hp]
  simp only [singleton_mul_singleton, Proof.encode]

theorem length_of_mem_spellings {p : Proof} (h : front ∈ p.spellings idle) : front.length = 128 := by
  obtain ⟨_, ⟨as, has, bs, hbs, rfl⟩, cs, hcs, rfl⟩ := h
  simp only [List.length_append, G1.length_of_mem_spellings has, G2.length_of_mem_spellings hbs,
    G1.length_of_mem_spellings hcs]

end Proof

namespace VerifyingKey

/-- The spellings of a verifying key: one of each of its points, with the number of those for the
inputs. -/
def spellings (idle : Set Base) (k : VerifyingKey) : Language UInt8 :=
  k.alpha.spellings idle * k.beta.spellings idle * k.gamma.spellings idle *
    k.delta.spellings idle * listSpellings (G1.spellings idle) k.inputs

/-- No point of a verifying key is the neutral element. -/
structure Finite (k : VerifyingKey) : Prop where
  alpha : k.alpha ≠ .infinity
  beta : k.beta ≠ .infinity
  gamma : k.gamma ≠ .infinity
  delta : k.delta ≠ .infinity
  inputs : ∀ p ∈ k.inputs, p ≠ .infinity

theorem reads : VerifyingKey.decode.Reads Valid (spellings Set.univ) := by
  intro bytes k rest
  constructor
  · intro h
    obtain ⟨alpha, as, _, halpha, has, rfl, h1⟩ := G1.reads.of_bind h
    obtain ⟨beta, bs, _, hbeta, hbs, rfl, h2⟩ := G2.reads.of_bind h1
    obtain ⟨gamma, cs, _, hgamma, hcs, rfl, h3⟩ := G2.reads.of_bind h2
    obtain ⟨delta, ds, _, hdelta, hds, rfl, h4⟩ := G2.reads.of_bind h3
    obtain ⟨inputs, is, _, hinputs, his, rfl, h5⟩ := G1.reads_list.of_bind h4
    obtain ⟨rfl, rfl⟩ := Prod.mk.inj (Except.ok.inj h5)
    refine ⟨⟨halpha, hbeta, hgamma, hdelta, hinputs.1, hinputs.2⟩, as ++ bs ++ cs ++ ds ++ is, ?_, ?_⟩
    · exact ⟨_, ⟨_, ⟨_, ⟨as, has, bs, hbs, rfl⟩, cs, hcs, rfl⟩, ds, hds, rfl⟩, is, his, rfl⟩
    · simp only [List.append_assoc]
  · rintro ⟨hk, _, ⟨_, ⟨_, ⟨_, ⟨as, has, bs, hbs, rfl⟩, cs, hcs, rfl⟩, ds, hds, rfl⟩, is, his, rfl⟩,
      rfl⟩
    rw [VerifyingKey.decode]
    simp only [List.append_assoc, G1.reads.read hk.alpha has, G2.reads.read hk.beta hbs,
      G2.reads.read hk.gamma hcs, G2.reads.read hk.delta hds,
      G1.reads_list.read ⟨hk.inputs, hk.few⟩ his, bind, Except.bind]
    rfl

theorem spellings_eq {k : VerifyingKey} (h : k.Finite ∨ idle = {0}) :
    k.spellings idle = {k.encode} := by
  rw [spellings, G1.spellings_eq fun hp => h.resolve_left fun hfinite => hfinite.alpha hp,
    G2.spellings_eq fun hp => h.resolve_left fun hfinite => hfinite.beta hp,
    G2.spellings_eq fun hp => h.resolve_left fun hfinite => hfinite.gamma hp,
    G2.spellings_eq fun hp => h.resolve_left fun hfinite => hfinite.delta hp,
    listSpellings_eq fun p hmem => G1.spellings_eq fun hp =>
      h.resolve_left fun hfinite => hfinite.inputs p hmem hp]
  simp only [singleton_mul_singleton, VerifyingKey.encode]

theorem length_of_mem_spellings {k : VerifyingKey} (h : front ∈ k.spellings idle) :
    front.length = k.encode.length := by
  obtain ⟨_, ⟨_, ⟨_, ⟨as, has, bs, hbs, rfl⟩, cs, hcs, rfl⟩, ds, hds, rfl⟩, is, his, rfl⟩ := h
  have hinputs := length_of_mem_listSpellings (fun _ _ => G1.length_of_mem_spellings) his
  simp only [VerifyingKey.length_encode, List.length_append, G1.length_of_mem_spellings has,
    G2.length_of_mem_spellings hbs, G2.length_of_mem_spellings hcs, G2.length_of_mem_spellings hds,
    hinputs]
  omega

end VerifyingKey

namespace ProvingKey

/-- The spellings of a proving key: one of its verifying key and one of each of its points. -/
def spellings (idle : Set Base) (k : ProvingKey) : Language UInt8 :=
  k.verifying.spellings idle * k.beta.spellings idle * k.delta.spellings idle *
    listSpellings (G1.spellings idle) k.aQuery * listSpellings (G1.spellings idle) k.bQuery *
    listSpellings (G2.spellings idle) k.bTwistQuery * listSpellings (G1.spellings idle) k.hQuery *
    listSpellings (G1.spellings idle) k.lQuery

/-- No point of a proving key is the neutral element. -/
structure Finite (k : ProvingKey) : Prop where
  verifying : k.verifying.Finite
  beta : k.beta ≠ .infinity
  delta : k.delta ≠ .infinity
  aQuery : ∀ p ∈ k.aQuery, p ≠ .infinity
  bQuery : ∀ p ∈ k.bQuery, p ≠ .infinity
  bTwistQuery : ∀ p ∈ k.bTwistQuery, p ≠ .infinity
  hQuery : ∀ p ∈ k.hQuery, p ≠ .infinity
  lQuery : ∀ p ∈ k.lQuery, p ≠ .infinity

theorem reads : ProvingKey.decode.Reads Valid (spellings Set.univ) := by
  intro bytes k rest
  constructor
  · intro h
    obtain ⟨verifying, vs, _, hverifying, hvs, rfl, h1⟩ := VerifyingKey.reads.of_bind h
    obtain ⟨beta, bs, _, hbeta, hbs, rfl, h2⟩ := G1.reads.of_bind h1
    obtain ⟨delta, ds, _, hdelta, hds, rfl, h3⟩ := G1.reads.of_bind h2
    obtain ⟨a, as, _, ha, has, rfl, h4⟩ := G1.reads_list.of_bind h3
    obtain ⟨b, cs, _, hb, hcs, rfl, h5⟩ := G1.reads_list.of_bind h4
    obtain ⟨twist, ts, _, ht, hts, rfl, h6⟩ := G2.reads_list.of_bind h5
    obtain ⟨quotient, qs, _, hq, hqs, rfl, h7⟩ := G1.reads_list.of_bind h6
    obtain ⟨secret, ss, _, hs, hss, rfl, h8⟩ := G1.reads_list.of_bind h7
    obtain ⟨rfl, rfl⟩ := Prod.mk.inj (Except.ok.inj h8)
    refine ⟨⟨hverifying, hbeta, hdelta, ha.1, hb.1, ht.1, hq.1, hs.1, ha.2, hb.2, ht.2, hq.2, hs.2⟩,
      vs ++ bs ++ ds ++ as ++ cs ++ ts ++ qs ++ ss, ?_, ?_⟩
    · exact ⟨_, ⟨_, ⟨_, ⟨_, ⟨_, ⟨_, ⟨vs, hvs, bs, hbs, rfl⟩, ds, hds, rfl⟩, as, has, rfl⟩, cs, hcs,
        rfl⟩, ts, hts, rfl⟩, qs, hqs, rfl⟩, ss, hss, rfl⟩
    · simp only [List.append_assoc]
  · rintro ⟨hk, _, ⟨_, ⟨_, ⟨_, ⟨_, ⟨_, ⟨_, ⟨vs, hvs, bs, hbs, rfl⟩, ds, hds, rfl⟩, as, has, rfl⟩, cs,
      hcs, rfl⟩, ts, hts, rfl⟩, qs, hqs, rfl⟩, ss, hss, rfl⟩, rfl⟩
    obtain ⟨ha, hb, ht, hq, hs⟩ := hk.few
    rw [ProvingKey.decode]
    simp only [List.append_assoc, VerifyingKey.reads.read hk.verifying hvs,
      G1.reads.read hk.beta hbs, G1.reads.read hk.delta hds,
      G1.reads_list.read ⟨hk.aQuery, ha⟩ has, G1.reads_list.read ⟨hk.bQuery, hb⟩ hcs,
      G2.reads_list.read ⟨hk.bTwistQuery, ht⟩ hts, G1.reads_list.read ⟨hk.hQuery, hq⟩ hqs,
      G1.reads_list.read ⟨hk.lQuery, hs⟩ hss, bind, Except.bind]
    rfl

theorem spellings_eq {k : ProvingKey} (h : k.Finite ∨ idle = {0}) :
    k.spellings idle = {k.encode} := by
  rw [spellings, VerifyingKey.spellings_eq (h.imp_left Finite.verifying),
    G1.spellings_eq fun hp => h.resolve_left fun hfinite => hfinite.beta hp,
    G1.spellings_eq fun hp => h.resolve_left fun hfinite => hfinite.delta hp,
    listSpellings_eq fun p hmem => G1.spellings_eq fun hp =>
      h.resolve_left fun hfinite => hfinite.aQuery p hmem hp,
    listSpellings_eq fun p hmem => G1.spellings_eq fun hp =>
      h.resolve_left fun hfinite => hfinite.bQuery p hmem hp,
    listSpellings_eq fun p hmem => G2.spellings_eq fun hp =>
      h.resolve_left fun hfinite => hfinite.bTwistQuery p hmem hp,
    listSpellings_eq fun p hmem => G1.spellings_eq fun hp =>
      h.resolve_left fun hfinite => hfinite.hQuery p hmem hp,
    listSpellings_eq fun p hmem => G1.spellings_eq fun hp =>
      h.resolve_left fun hfinite => hfinite.lQuery p hmem hp]
  simp only [singleton_mul_singleton, ProvingKey.encode]

theorem length_of_mem_spellings {k : ProvingKey} (h : front ∈ k.spellings idle) :
    front.length = k.encode.length := by
  obtain ⟨_, ⟨_, ⟨_, ⟨_, ⟨_, ⟨_, ⟨vs, hvs, bs, hbs, rfl⟩, ds, hds, rfl⟩, as, has, rfl⟩, cs, hcs, rfl⟩,
    ts, hts, rfl⟩, qs, hqs, rfl⟩, ss, hss, rfl⟩ := h
  have hlist {ps : List G1} {items : Bytes} (h : items ∈ listSpellings (G1.spellings idle) ps) :=
    length_of_mem_listSpellings (fun _ _ => G1.length_of_mem_spellings) h
  have htwist := length_of_mem_listSpellings (fun _ _ => G2.length_of_mem_spellings) hts
  simp only [ProvingKey.encode, List.length_append, VerifyingKey.length_of_mem_spellings hvs,
    G1.length_of_mem_spellings hbs, G1.length_of_mem_spellings hds, hlist has, hlist hcs, htwist,
    hlist hqs, hlist hss, G1.length_encode, length_encodeList G1.length_encode,
    length_encodeList G2.length_encode]

end ProvingKey
end Parts

/-- The spellings of a section: its length, then a spelling of its contents that is not too long for
its length to be told. -/
def sectionSpellings (contents : Language UInt8) : Language UInt8 :=
  Artifact.encodeSection '' {part | part ∈ contents ∧ part.length < 1 <<< 32}

namespace ProofResult

/-- The spellings of an envelope: one of each of its sections. -/
def spellings (idle : Set Base) (r : ProofResult) : Language UInt8 :=
  sectionSpellings (r.proof.spellings idle) * sectionSpellings (r.verifyingKey.spellings idle) *
    sectionSpellings {Artifact.encodeWitness r.publicWitness}

/-- No point of a proof nor of its key is the neutral element. -/
structure Finite (r : ProofResult) : Prop where
  proof : r.proof.Finite
  verifyingKey : r.verifyingKey.Finite

end ProofResult

namespace Artifact

variable {bytes part rest : Bytes}

theorem decodeAll_eq_ok_iff {α : Type} (name : Section) {item : Decoder α} {valid : α → Prop}
    {spellings : α → Language UInt8} (h : item.Reads valid spellings) {v : α} :
    decodeAll name item bytes = .ok v ↔ valid v ∧ bytes ∈ spellings v := by
  have hwhole : item bytes = .ok (v, []) ↔ valid v ∧ bytes ∈ spellings v := by
    rw [h]
    constructor
    · rintro ⟨hv, front, hfront, rfl⟩
      rw [List.append_nil]
      exact ⟨hv, hfront⟩
    · rintro ⟨hv, hbytes⟩
      exact ⟨hv, bytes, hbytes, List.append_nil bytes⟩
  rw [← hwhole, decodeAll]
  constructor
  · intro hread
    split at hread
    · cases hread
    · rename_i hitem
      obtain rfl := Except.ok.inj hread
      exact hitem
    · cases hread
  · intro hitem
    rw [hitem]

theorem decodeSection_eq_ok_iff :
    decodeSection bytes = .ok (part, rest) ↔
      part.length < 1 <<< 32 ∧ bytes = encodeSection part ++ rest := by
  constructor
  · intro h
    obtain ⟨hlong, h1⟩ := Outcome.of_guard h
    obtain ⟨hwhole, h2⟩ := Outcome.of_guard h1
    obtain ⟨rfl, rfl⟩ := Prod.mk.inj (Except.ok.inj h2)
    have hfront : (bytes.take 4).length = 4 := List.length_take_of_le (Nat.not_lt.1 hlong)
    have hlength := List.length_take_of_le (Nat.not_lt.1 hwhole)
    have hencoded := LittleEndian.encode_decode (bytes.take 4)
    have hlt := LittleEndian.decode_lt (bytes.take 4)
    rw [hfront] at hencoded hlt
    rw [encodeSection, hlength, hencoded, List.append_assoc, List.take_append_drop,
      List.take_append_drop]
    exact ⟨hlt, rfl⟩
  · rintro ⟨hlt, rfl⟩
    exact decodeSection_encodeSection hlt

theorem openEnvelope_eq_ok_iff {proof key witness : Bytes} :
    openEnvelope bytes = .ok (proof, key, witness) ↔
      (proof.length < 1 <<< 32 ∧ key.length < 1 <<< 32 ∧ witness.length < 1 <<< 32) ∧
        bytes = sealed proof key witness := by
  constructor
  · intro h
    obtain ⟨⟨first, rest⟩, hfirst, h1⟩ := Outcome.of_bind h
    obtain ⟨hproof, rfl⟩ := decodeSection_eq_ok_iff.1 hfirst
    obtain ⟨⟨second, rest'⟩, hsecond, h2⟩ := Outcome.of_bind h1
    obtain ⟨hkey, rfl⟩ := decodeSection_eq_ok_iff.1 hsecond
    obtain ⟨⟨third, rest''⟩, hthird, h3⟩ := Outcome.of_bind h2
    obtain ⟨hwitness, rfl⟩ := decodeSection_eq_ok_iff.1 hthird
    obtain ⟨hempty, h4⟩ := Outcome.of_guard_else h3
    obtain ⟨rfl, hparts⟩ := Prod.mk.inj (Except.ok.inj h4)
    obtain ⟨rfl, rfl⟩ := Prod.mk.inj hparts
    obtain rfl := List.isEmpty_iff.1 hempty
    refine ⟨⟨hproof, hkey, hwitness⟩, ?_⟩
    simp only [sealed, List.append_assoc, List.append_nil]
  · rintro ⟨⟨hproof, hkey, hwitness⟩, rfl⟩
    exact openEnvelope_sealed hproof hkey hwitness

theorem decodeWitness_reads :
    decodeWitness.Reads (fun inputs => inputs.length < 256 ^ 8)
      fun inputs => {encodeWitness inputs} := by
  have hlist := @decodeList_reads Scalar Scalar.decode (fun _ => True) (fun x => {Scalar.encode x})
    (fun _ => true) 32 Scalar.reads (fun x _ h => h ▸ Scalar.length_encode x) (by decide)
  intro bytes inputs rest
  refine (hlist bytes inputs rest).trans ?_
  rw [listSpellings_eq fun _ _ => rfl]
  exact and_congr_left' (and_iff_right fun _ _ => ⟨trivial, rfl⟩)

/-- Bytes come out as a proof exactly if its points and those of its key are of their groups and the
bytes are a spelling of it. -/
theorem decode_eq_ok_iff {r : ProofResult} :
    decode bytes = .ok r ↔
      (r.Valid ∧ r.transaction = none) ∧ bytes ∈ r.spellings Set.univ := by
  constructor
  · intro h
    obtain ⟨⟨proof, key, witness⟩, hopen, h1⟩ := Outcome.of_bind h
    obtain ⟨⟨hproof, hkey, hwitness⟩, rfl⟩ := openEnvelope_eq_ok_iff.1 (Outcome.of_mapError hopen)
    obtain ⟨p, hp, h2⟩ := Outcome.of_bind h1
    obtain ⟨k, hk, h3⟩ := Outcome.of_bind h2
    obtain ⟨inputs, hinputs, h4⟩ := Outcome.of_bind h3
    obtain rfl := Except.ok.inj h4
    obtain ⟨hpvalid, hpmem⟩ := (decodeAll_eq_ok_iff .proof Proof.reads).1 hp
    obtain ⟨hkvalid, hkmem⟩ := (decodeAll_eq_ok_iff .verifyingKey VerifyingKey.reads).1 hk
    obtain ⟨-, hwmem⟩ := (decodeAll_eq_ok_iff .publicWitness decodeWitness_reads).1 hinputs
    refine ⟨⟨⟨hpvalid, hkvalid⟩, rfl⟩, ?_⟩
    refine Language.append_mem_mul (Language.append_mem_mul ?_ ?_) ?_
    · exact ⟨proof, ⟨hpmem, hproof⟩, rfl⟩
    · exact ⟨key, ⟨hkmem, hkey⟩, rfl⟩
    · exact ⟨witness, ⟨hwmem, hwitness⟩, rfl⟩
  · rintro ⟨⟨hr, htransaction⟩, _, ⟨_, ⟨proof, ⟨hpmem, hproof⟩, rfl⟩, _, ⟨key, ⟨hkmem, hkey⟩, rfl⟩,
      rfl⟩, _, ⟨witness, ⟨hwmem, hwitness⟩, rfl⟩, rfl⟩
    have hfew : r.publicWitness.length < 256 ^ 8 := by
      rw [show witness = _ from hwmem, length_encodeWitness] at hwitness
      omega
    have hopen := openEnvelope_eq_ok_iff.2 ⟨⟨hproof, hkey, hwitness⟩, rfl⟩
    have hp := (decodeAll_eq_ok_iff .proof Proof.reads).2 ⟨hr.proof, hpmem⟩
    have hk := (decodeAll_eq_ok_iff .verifyingKey VerifyingKey.reads).2 ⟨hr.verifyingKey, hkmem⟩
    have hw := (decodeAll_eq_ok_iff .publicWitness decodeWitness_reads).2 ⟨hfew, hwmem⟩
    rw [sealed] at hopen
    rw [decode]
    simp only [hopen, Except.mapError, bind, Except.bind, hp, hk, hw, pure, Except.pure]
    rw [← htransaction]

theorem mem_sectionSpellings_singleton :
    bytes ∈ sectionSpellings {part} ↔ part.length < 1 <<< 32 ∧ bytes = encodeSection part := by
  constructor
  · rintro ⟨_, ⟨rfl, hlt⟩, rfl⟩
    exact ⟨hlt, rfl⟩
  · rintro ⟨hlt, rfl⟩
    exact ⟨part, ⟨rfl, hlt⟩, rfl⟩

/-- An envelope whose idle coordinates, if it has any, are zero is written of its proof. -/
theorem write_eq_ok_iff {idle : Set Base} {r : ProofResult} (h : r.Finite ∨ idle = {0}) :
    write r = .ok bytes ↔ bytes ∈ r.spellings idle := by
  rw [ProofResult.spellings, Proof.spellings_eq (h.imp_left ProofResult.Finite.proof),
    VerifyingKey.spellings_eq (h.imp_left ProofResult.Finite.verifyingKey)]
  constructor
  · intro hwrite
    obtain ⟨⟨hkey, hwitness⟩, hencode⟩ := Outcome.of_guard_else hwrite
    obtain rfl := Except.ok.inj hencode
    have hproof : r.proof.encode.length < 1 <<< 32 := by
      rw [Proof.length_encode]
      decide
    exact Language.append_mem_mul
      (Language.append_mem_mul (mem_sectionSpellings_singleton.2 ⟨hproof, rfl⟩)
        (mem_sectionSpellings_singleton.2 ⟨hkey, rfl⟩))
      (mem_sectionSpellings_singleton.2 ⟨hwitness, rfl⟩)
  · rintro ⟨_, ⟨_, hproof, _, hkey, rfl⟩, _, hwitness, rfl⟩
    obtain ⟨-, rfl⟩ := mem_sectionSpellings_singleton.1 hproof
    obtain ⟨hkeyFits, rfl⟩ := mem_sectionSpellings_singleton.1 hkey
    obtain ⟨hwitnessFits, rfl⟩ := mem_sectionSpellings_singleton.1 hwitness
    exact if_pos ⟨hkeyFits, hwitnessFits⟩

theorem length_of_mem_sectionSpellings {contents : Language UInt8} {size : Nat}
    (hsize : ∀ part ∈ contents, part.length = size) (h : bytes ∈ sectionSpellings contents) :
    size < 1 <<< 32 ∧ bytes.length = 4 + size := by
  obtain ⟨part, ⟨hpart, hlt⟩, rfl⟩ := h
  rw [hsize part hpart] at hlt
  rw [encodeSection, List.length_append, LittleEndian.length_encode, hsize part hpart]
  exact ⟨hlt, rfl⟩

/-- All spellings of a proof are as long as what is written of it. -/
theorem write_of_mem_spellings {idle : Set Base} {r : ProofResult} (h : bytes ∈ r.spellings idle) :
    ∃ plain, write r = .ok plain ∧ plain.length = bytes.length := by
  obtain ⟨_, ⟨_, hproof, _, hkey, rfl⟩, _, hwitness, rfl⟩ := h
  obtain ⟨-, hproof⟩ := length_of_mem_sectionSpellings (fun _ => Proof.length_of_mem_spellings) hproof
  obtain ⟨hkeyFits, hkey⟩ :=
    length_of_mem_sectionSpellings (fun _ => VerifyingKey.length_of_mem_spellings) hkey
  obtain ⟨hwitnessFits, rfl⟩ := mem_sectionSpellings_singleton.1 hwitness
  refine ⟨encode r, if_pos ⟨hkeyFits, hwitnessFits⟩, ?_⟩
  simp only [encode, encodeSection, List.length_append, LittleEndian.length_encode, hproof, hkey,
    Proof.length_encode]

/-- How an artifact is spelled, with any coordinates in place of those that are idle. -/
structure SpelledOnce {α : Type} (read : Bytes → Except CodecError α)
    (write : α → Except CodecError Bytes) (valid finite : α → Prop)
    (spellings : Set Base → α → Language UInt8) : Prop where
  /-- The bytes that come out as an artifact are its spellings with any idle coordinates. -/
  read_iff : ∀ bytes v, read bytes = .ok v ↔ valid v ∧ bytes ∈ spellings Set.univ v
  /-- What is written is the spelling whose idle coordinates are zero. -/
  write_iff : ∀ bytes v, write v = .ok bytes ↔ bytes ∈ spellings {0} v
  /-- Whatever has been read can be written, in as many bytes. -/
  written : ∀ bytes v, read bytes = .ok v → ∃ plain, write v = .ok plain ∧ plain.length = bytes.length
  /-- Without a neutral element there is one spelling. -/
  unique : ∀ bytes v, read bytes = .ok v → finite v → write v = .ok bytes

theorem spelledOnce_of_reads {α : Type} (name : Section) {item : Decoder α} {encode : α → Bytes}
    {valid finite : α → Prop} {spellings : Set Base → α → Language UInt8}
    (hreads : item.Reads valid (spellings Set.univ))
    (hspelled : ∀ {v : α} {idle : Set Base}, finite v ∨ idle = {0} → spellings idle v = {encode v})
    (hlength : ∀ {v : α} {front : Bytes}, front ∈ spellings Set.univ v →
      front.length = (encode v).length) :
    SpelledOnce (decodeAll name item) (fun v => .ok (encode v)) valid finite spellings where
  read_iff _ _ := decodeAll_eq_ok_iff name hreads
  write_iff bytes v := by
    rw [hspelled (.inr rfl)]
    exact ⟨fun h => (Except.ok.inj h).symm, fun h => congrArg Except.ok h.symm⟩
  written bytes v h :=
    ⟨encode v, rfl, (hlength ((decodeAll_eq_ok_iff name hreads).1 h).2).symm⟩
  unique bytes v h hfinite := by
    have hmem := ((decodeAll_eq_ok_iff name hreads).1 h).2
    rw [hspelled (.inl hfinite)] at hmem
    exact congrArg Except.ok hmem.symm

/-- Proofs in their envelopes, verifying keys and proving keys are spelled in one way each, but for the
coordinates of neutral elements: these are not looked at, and zero is written for them. -/
theorem spelledOnce :
    SpelledOnce decode write (fun r => r.Valid ∧ r.transaction = none) ProofResult.Finite
        ProofResult.spellings ∧
      SpelledOnce decodeVerifyingKey (fun k => .ok k.encode) VerifyingKey.Valid VerifyingKey.Finite
        VerifyingKey.spellings ∧
      SpelledOnce decodeProvingKey (fun k => .ok k.encode) ProvingKey.Valid ProvingKey.Finite
        ProvingKey.spellings := by
  refine ⟨?_, ?_, ?_⟩
  · exact {
      read_iff := fun _ _ => decode_eq_ok_iff
      write_iff := fun _ _ => write_eq_ok_iff (.inr rfl)
      written := fun _ _ h => write_of_mem_spellings (decode_eq_ok_iff.1 h).2
      unique := fun _ _ h hfinite =>
        (write_eq_ok_iff (.inl hfinite)).2 (decode_eq_ok_iff.1 h).2 }
  · exact spelledOnce_of_reads .verifyingKey VerifyingKey.reads VerifyingKey.spellings_eq
      VerifyingKey.length_of_mem_spellings
  · exact spelledOnce_of_reads .provingKey ProvingKey.reads ProvingKey.spellings_eq
      ProvingKey.length_of_mem_spellings

/-- A proof of neutral elements alone, with no public inputs. -/
def neutral : ProofResult where
  proof := ⟨.infinity, .infinity, .infinity⟩
  verifyingKey := ⟨.infinity, .infinity, .infinity, .infinity, []⟩
  publicWitness := []
  transaction := none

/-- The envelope of that proof with one in place of its first idle coordinate. -/
def leftover : Bytes :=
  sealed (Base.encodeFlagged .infinity 1 ++ G2.encode .infinity ++ G1.encode .infinity)
    neutral.verifyingKey.encode (encodeWitness [])

/-- A neutral element whose coordinate is not zero is read, but it is not what is written. -/
theorem respelled_leftover :
    decode leftover = .ok neutral ∧ write neutral ≠ .ok leftover ∧
      write neutral = .ok (leftover.set 4 0) ∧ decode (leftover.set 4 0) = .ok neutral ∧
      leftover ≠ leftover.set 4 0 := by
  decide +kernel

end Artifact
end PrivatePresentation
