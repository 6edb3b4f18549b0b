import PrivatePresentation.Groth16.Codec
import PrivatePresentation.Proofs.Outcome
import PrivatePresentation.Proofs.Text.Base64

/-!
Envelopes are read back.  Lengths and residues are numbers of a fixed number of bytes, a section is
as long as it says, and the text of an envelope is that of its bytes; so a proof comes out of its
envelope with its key and its public inputs, if its points and those of the key are read back.
-/

namespace PrivatePresentation

namespace LittleEndian

theorem length_encode (count n : Nat) : (encode count n).length = count := by
  induction count generalizing n with
  | zero => rfl
  | succ count ih => rw [encode, List.length_cons, ih]

theorem decode_encode {count n : Nat} (hn : n < 256 ^ count) : decode (encode count n) = n := by
  induction count generalizing n with
  | zero =>
      rw [Nat.pow_zero, Nat.lt_one_iff] at hn
      exact hn.symm
  | succ count ih =>
      have hrest : n / 256 < 256 ^ count := by
        rw [Nat.pow_succ] at hn
        exact Nat.div_lt_of_lt_mul (by rwa [Nat.mul_comm])
      have hbyte : (UInt8.ofNat (n % 256)).toNat = n % 256 :=
        UInt8.toNat_ofNat_of_lt (Nat.mod_lt n (by decide))
      rw [encode, decode, ih hrest, hbyte, Nat.mod_add_div]

end LittleEndian

/-- A value is read off the front of what is written of it, and nothing more is read. -/
def Decoder.ReadsBack {α : Type} (item : Decoder α) (write : α → Bytes) (v : α) : Prop :=
  ∀ rest, item (write v ++ rest) = .ok (v, rest)

theorem takeBytes_append {count : Nat} {front : Bytes} (h : front.length = count) (rest : Bytes) :
    takeBytes count (front ++ rest) = .ok (front, rest) := by
  have hfull : ¬front.length < count := Nat.not_lt.2 (Nat.le_of_eq h.symm)
  rw [takeBytes, List.take_left' h, List.drop_left' h]
  exact if_neg hfull

/-- A number below an order of 255 bits at most is read back. -/
theorem decodeBelow_readsBack {order : Nat} (horder : order ≤ 1 <<< 255) (x : Fin order) :
    Decoder.ReadsBack (decodeBelow order) (fun x => LittleEndian.encode elementBytes x.val) x := by
  intro rest
  have hx : x.val < 1 <<< 255 := Nat.lt_of_lt_of_le x.isLt horder
  have hbelow : x.val < 256 ^ elementBytes := hx.trans (by decide)
  rw [decodeBelow]
  simp only [takeBytes_append (LittleEndian.length_encode elementBytes x.val) rest, bind, Except.bind,
    LittleEndian.decode_encode hbelow, if_neg (Nat.not_le.2 hx), x.isLt, dite_true]

theorem Scalar.readsBack (x : Scalar) : Decoder.ReadsBack Scalar.decode Scalar.encode x :=
  decodeBelow_readsBack (by decide) x

section Lists

variable {α : Type} {item : Decoder α} {write : α → Bytes}

theorem decodeMany_readsBack {vs : List α} (h : ∀ v ∈ vs, item.ReadsBack write v) (rest : Bytes) :
    decodeMany item vs.length (vs.flatMap write ++ rest) = .ok (vs, rest) := by
  induction vs with
  | nil => rfl
  | cons v vs ih =>
      have hv := h v List.mem_cons_self (vs.flatMap write ++ rest)
      have hvs := ih fun u hu => h u (List.mem_cons_of_mem v hu)
      rw [List.flatMap_cons, List.append_assoc, List.length_cons, decodeMany]
      simp only [hv, hvs, bind, Except.bind, pure, Except.pure]

theorem length_le_length_flatMap (hfull : ∀ v, write v ≠ []) (vs : List α) :
    vs.length ≤ (vs.flatMap write).length := by
  induction vs with
  | nil => exact Nat.le_refl 0
  | cons v vs ih =>
      have hv := List.length_pos_iff.2 (hfull v)
      rw [List.flatMap_cons, List.length_append, List.length_cons]
      omega

/-- Items that take up a byte at least, are not too many and pass the check are read back as a list. -/
theorem decodeList_readsBack {check : α → Bool} {vs : List α}
    (h : ∀ v ∈ vs, item.ReadsBack write v) (hfull : ∀ v, write v ≠ []) (hfew : vs.length < 256 ^ 8)
    (hcheck : ∀ v ∈ vs, check v = true) :
    Decoder.ReadsBack (decodeList item check) (encodeList write) vs := by
  intro rest
  have hlength := length_le_length_flatMap hfull vs
  have hcount : min vs.length ((vs.flatMap write ++ rest).length + 1) = vs.length := by
    rw [List.length_append]
    omega
  rw [decodeList, encodeList, List.append_assoc]
  simp only [takeBytes_append (LittleEndian.length_encode 8 vs.length), bind, Except.bind,
    LittleEndian.decode_encode hfew, hcount, decodeMany_readsBack h rest,
    if_pos (List.all_eq_true.2 hcheck)]

end Lists

theorem Scalar.length_encode (x : Scalar) : (Scalar.encode x).length = 32 :=
  LittleEndian.length_encode _ _

theorem Base.length_encodeFlagged (flag : PointFlag) (x : Base) :
    (Base.encodeFlagged flag x).length = 32 :=
  LittleEndian.length_encode _ _

theorem G1.length_encode (p : G1) : (G1.encode p).length = 32 := by
  cases p with
  | infinity => exact Base.length_encodeFlagged _ _
  | affine x y => exact Base.length_encodeFlagged _ _

theorem G2.length_encode (p : G2) : (G2.encode p).length = 64 := by
  cases p with
  | infinity =>
      rw [G2.encode, List.length_append, Base.length_encodeFlagged, Base.encode,
        LittleEndian.length_encode]
      rfl
  | affine x y =>
      rw [G2.encode, List.length_append, Base.length_encodeFlagged, Base.encode,
        LittleEndian.length_encode]
      rfl

section Flags

variable {n b : Nat}

/-- A number below the flag, and the flag. -/
theorem flagged_parts (hn : n < 1 <<< 254) :
    (n + b <<< 254) >>> 254 = b ∧ (n + b <<< 254) % (1 <<< 254) = n := by
  rw [Nat.one_shiftLeft] at hn ⊢
  rw [Nat.shiftRight_eq_div_pow, Nat.shiftLeft_eq, Nat.add_mul_div_right n b (Nat.two_pow_pos 254),
    Nat.add_mul_mod_self_right, Nat.div_eq_of_lt hn, Nat.mod_eq_of_lt hn, Nat.zero_add]
  exact ⟨rfl, rfl⟩

theorem flagged_lt (hn : n < 1 <<< 254) (hb : b < 4) : n + b <<< 254 < 1 <<< 256 := by
  rw [Nat.one_shiftLeft] at hn ⊢
  rw [Nat.shiftLeft_eq]
  calc n + b * 2 ^ 254 < 2 ^ 254 + b * 2 ^ 254 := Nat.add_lt_add_right hn _
    _ = (b + 1) * 2 ^ 254 := by rw [Nat.succ_mul, Nat.add_comm]
    _ ≤ 4 * 2 ^ 254 := Nat.mul_le_mul_right _ hb
    _ = 2 ^ 256 := by rw [Nat.pow_succ 2 255, Nat.pow_succ 2 254]; exact Nat.mul_comm _ _

theorem Base.decodeFlagged_encodeFlagged (flag : PointFlag) (x : Base) (rest : Bytes) :
    Base.decodeFlagged (Base.encodeFlagged flag x ++ rest) = .ok ((x, flag), rest) := by
  have hx : x.val < 1 <<< 254 := x.isLt.trans (by decide)
  have hflag : flag.bits < 4 := by cases flag <;> decide
  have hbelow : x.val + (flag.bits <<< 254) < 256 ^ elementBytes := flagged_lt hx hflag
  obtain ⟨hhigh, hlow⟩ := flagged_parts (b := flag.bits) hx
  rw [Base.decodeFlagged, Base.encodeFlagged]
  simp only [takeBytes_append (LittleEndian.length_encode elementBytes _) rest, bind, Except.bind,
    LittleEndian.decode_encode hbelow, hhigh, hlow, x.isLt, dite_true]
  cases flag <;> rfl

end Flags

theorem G1.readsBack_infinity : Decoder.ReadsBack G1.decode G1.encode .infinity := by
  intro rest
  rw [G1.decode, G1.encode]
  simp only [Base.decodeFlagged_encodeFlagged, bind, Except.bind]

theorem G2.readsBack_of_unchecked {p : G2}
    (hp : Decoder.ReadsBack G2.decodeUnchecked G2.encode p) (hgroup : G2.isInGroup p = true) :
    Decoder.ReadsBack G2.decode G2.encode p := by
  intro rest
  rw [G2.decode]
  simp only [hp rest, bind, Except.bind, hgroup, if_true]

theorem G2.readsBack_unchecked_infinity :
    Decoder.ReadsBack G2.decodeUnchecked G2.encode .infinity := by
  intro rest
  have hfirst := @decodeBelow_readsBack baseOrder (by decide) 0
    (Base.encodeFlagged .infinity 0 ++ rest)
  rw [G2.decodeUnchecked, G2.encode, List.append_assoc]
  simp only [Base.encode, hfirst, Base.decodeFlagged_encodeFlagged, bind, Except.bind]

theorem G2.readsBack_infinity : Decoder.ReadsBack G2.decode G2.encode .infinity :=
  readsBack_of_unchecked readsBack_unchecked_infinity (by decide +kernel)

/-- A proof is read back if its points are. -/
theorem Proof.readsBack {p : Proof} (ha : Decoder.ReadsBack G1.decode G1.encode p.a)
    (hb : Decoder.ReadsBack G2.decode G2.encode p.b)
    (hc : Decoder.ReadsBack G1.decode G1.encode p.c) :
    Decoder.ReadsBack Proof.decode Proof.encode p := by
  intro rest
  rw [Proof.decode, Proof.encode, List.append_assoc, List.append_assoc]
  simp only [ha _, hb _, hc _, bind, Except.bind]
  rfl

theorem G1.encode_ne_nil (p : G1) : G1.encode p ≠ [] := by
  rw [← List.length_pos_iff, G1.length_encode]
  decide

theorem G1.readsBack_list {ps : List G1} (h : ∀ p ∈ ps, Decoder.ReadsBack G1.decode G1.encode p)
    (hfew : ps.length < 256 ^ 8) :
    Decoder.ReadsBack (decodeList G1.decode fun _ => true) (encodeList G1.encode) ps :=
  decodeList_readsBack h G1.encode_ne_nil hfew fun _ _ => rfl

/-- A verifying key is read back if its points are. -/
theorem VerifyingKey.readsBack {k : VerifyingKey}
    (halpha : Decoder.ReadsBack G1.decode G1.encode k.alpha)
    (hbeta : Decoder.ReadsBack G2.decode G2.encode k.beta)
    (hgamma : Decoder.ReadsBack G2.decode G2.encode k.gamma)
    (hdelta : Decoder.ReadsBack G2.decode G2.encode k.delta)
    (hinputs : ∀ p ∈ k.inputs, Decoder.ReadsBack G1.decode G1.encode p)
    (hfew : k.inputs.length < 256 ^ 8) :
    Decoder.ReadsBack VerifyingKey.decode VerifyingKey.encode k := by
  intro rest
  have hlist := G1.readsBack_list hinputs hfew rest
  rw [VerifyingKey.decode, VerifyingKey.encode]
  simp only [List.append_assoc, halpha _, hbeta _, hgamma _, hdelta _, hlist, bind, Except.bind]
  rfl

theorem length_encodeList {α : Type} {write : α → Bytes} {size : Nat}
    (h : ∀ v, (write v).length = size) (vs : List α) :
    (encodeList write vs).length = 8 + vs.length * size := by
  have hitems : (vs.flatMap write).length = vs.length * size := by
    rw [List.length_flatMap, List.map_congr_left fun v _ => h v, List.map_const', List.sum_replicate]
    rfl
  rw [encodeList, List.length_append, LittleEndian.length_encode, hitems]

theorem Proof.length_encode (p : Proof) : p.encode.length = 128 := by
  simp only [Proof.encode, List.length_append, G1.length_encode, G2.length_encode]

theorem VerifyingKey.length_encode (k : VerifyingKey) :
    k.encode.length = 232 + k.inputs.length * 32 := by
  simp only [VerifyingKey.encode, List.length_append, G1.length_encode, G2.length_encode,
    length_encodeList G1.length_encode]
  omega

namespace Artifact

variable {r : ProofResult} {bytes rest : Bytes}

theorem decodeSection_encodeSection (h : bytes.length < 256 ^ 4) :
    decodeSection (encodeSection bytes ++ rest) = .ok (bytes, rest) := by
  have hfront := LittleEndian.length_encode 4 bytes.length
  have hlong : ¬(LittleEndian.encode 4 bytes.length ++ (bytes ++ rest)).length < 4 := by
    rw [List.length_append, hfront]
    omega
  have hwhole : ¬(bytes ++ rest).length < bytes.length := by
    rw [List.length_append]
    omega
  rw [decodeSection, encodeSection, List.append_assoc, if_neg hlong, List.take_left' hfront,
    List.drop_left' hfront, LittleEndian.decode_encode h]
  simp only [if_neg hwhole, List.take_left, List.drop_left]

theorem length_encodeWitness (inputs : List Scalar) :
    (encodeWitness inputs).length = 8 + inputs.length * 32 :=
  length_encodeList Scalar.length_encode inputs

/-- An envelope of three byte strings. -/
def sealed (proof key witness : Bytes) : Bytes :=
  encodeSection proof ++ encodeSection key ++ encodeSection witness

/-- The sections of an envelope are the byte strings that were put into it, and nothing is left. -/
theorem openEnvelope_sealed {proof key witness : Bytes} (hproof : proof.length < 256 ^ 4)
    (hkey : key.length < 256 ^ 4) (hwitness : witness.length < 256 ^ 4) :
    openEnvelope (sealed proof key witness) = .ok (proof, key, witness) := by
  have hlast := @decodeSection_encodeSection witness [] hwitness
  rw [List.append_nil] at hlast
  rw [openEnvelope, sealed, List.append_assoc]
  simp only [decodeSection_encodeSection hproof, decodeSection_encodeSection hkey, hlast, bind,
    Except.bind]
  rfl

/-- The three sections of an envelope are those that were written. -/
theorem openEnvelope_encode (hr : Fits r) :
    openEnvelope (encode r) =
      .ok (r.proof.encode, r.verifyingKey.encode, encodeWitness r.publicWitness) := by
  have hproof : r.proof.encode.length < 256 ^ 4 := by
    rw [Proof.length_encode]
    decide
  exact openEnvelope_sealed hproof hr.1 hr.2

theorem decodeAll_of_readsBack {α : Type} {part : Section} {item : Decoder α} {write : α → Bytes}
    {v : α} (h : item.ReadsBack write v) : decodeAll part item (write v) = .ok v := by
  have hv := h []
  rw [List.append_nil] at hv
  rw [decodeAll, hv]

theorem decodeWitness_readsBack {inputs : List Scalar}
    (h : (encodeWitness inputs).length < 256 ^ 4) :
    Decoder.ReadsBack decodeWitness encodeWitness inputs := by
  rw [length_encodeWitness] at h
  refine decodeList_readsBack (fun x _ => x.readsBack) (fun x => ?_) (by omega) fun _ _ => rfl
  rw [← List.length_pos_iff, Scalar.length_encode]
  decide

/-- A proof is read back from its envelope if its points and those of its key are. -/
theorem decode_encode (hr : Fits r) (hproof : Decoder.ReadsBack Proof.decode Proof.encode r.proof)
    (hkey : Decoder.ReadsBack VerifyingKey.decode VerifyingKey.encode r.verifyingKey) :
    decode (encode r) = .ok { r with transaction := none } := by
  rw [decode, openEnvelope_encode hr]
  simp only [Except.mapError, bind, Except.bind, decodeAll_of_readsBack hproof,
    decodeAll_of_readsBack hkey, decodeAll_of_readsBack (decodeWitness_readsBack hr.2)]
  rfl

/-- A proof is read back from its text. -/
theorem decodeText_encodeText (hr : Fits r)
    (hproof : Decoder.ReadsBack Proof.decode Proof.encode r.proof)
    (hkey : Decoder.ReadsBack VerifyingKey.decode VerifyingKey.encode r.verifyingKey) :
    decodeText (encodeText r) = .ok { r with transaction := none } := by
  rw [decodeText, encodeText, Base64.decode_trim_encode, ← decode_encode hr hproof hkey]
  rfl

end Artifact
end PrivatePresentation
