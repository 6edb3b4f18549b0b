import PrivatePresentation.Proofs.Curve.Ordinate

/-!
What the bytes of points are read from.  Numbers and the coordinates of a point are spelled in one way,
and a point by the coordinate and the flag that are written of it; only the neutral element, whose
coordinate is not looked at, leaves a coordinate idle.  So the bytes that come out as a point are its
spellings with any idle coordinate, and what is written is the one with zero in this place.
-/

namespace PrivatePresentation

open scoped Fin.CommRing

namespace LittleEndian

theorem decode_lt (bytes : Bytes) : decode bytes < 256 ^ bytes.length := by
  induction bytes with
  | nil => exact Nat.one_pos
  | cons b rest ih =>
      have hb := b.toNat_lt
      rw [decode, List.length_cons, Nat.pow_succ]
      omega

/-- Some bytes are the only ones of their number and their length. -/
theorem encode_decode (bytes : Bytes) : encode bytes.length (decode bytes) = bytes := by
  induction bytes with
  | nil => rfl
  | cons b rest ih =>
      have hb := b.toNat_lt
      have hlow : (b.toNat + 256 * decode rest) % 256 = b.toNat := by omega
      have hhigh : (b.toNat + 256 * decode rest) / 256 = decode rest := by omega
      rw [decode, List.length_cons, encode, hlow, hhigh, ih, UInt8.ofNat_toNat]

end LittleEndian

theorem singleton_mul_singleton (front back : Bytes) :
    ({front} * {back} : Language UInt8) = {front ++ back} :=
  Set.image2_singleton

/-- A value is read exactly if it is a valid one and one of its spellings is in front; what comes after
the spelling is left. -/
def Decoder.Reads {α : Type} (item : Decoder α) (valid : α → Prop) (spellings : α → Language UInt8) :
    Prop :=
  ∀ bytes v rest,
    item bytes = .ok (v, rest) ↔ valid v ∧ ∃ front ∈ spellings v, front ++ rest = bytes

namespace Decoder.Reads

variable {α β : Type} {item : Decoder α} {valid : α → Prop} {spellings : α → Language UInt8}

theorem congr {valid' : α → Prop} (h : item.Reads valid spellings)
    (hvalid : ∀ v, valid v ↔ valid' v) : item.Reads valid' spellings := by
  intro bytes v rest
  rw [h, hvalid]

theorem read (h : item.Reads valid spellings) {v : α} (hv : valid v) {front : Bytes}
    (hfront : front ∈ spellings v) (rest : Bytes) : item (front ++ rest) = .ok (v, rest) :=
  (h _ _ _).2 ⟨hv, front, hfront, rfl⟩

/-- What goes on after a value has been read goes on with it and with what its spelling leaves. -/
theorem of_bind (h : item.Reads valid spellings) {next : α × Bytes → Except EncodingError β}
    {bytes : Bytes} {b : β} (hb : (item bytes >>= next) = .ok b) :
    ∃ v front rest, valid v ∧ front ∈ spellings v ∧ bytes = front ++ rest ∧
      next (v, rest) = .ok b := by
  obtain ⟨⟨v, rest⟩, hitem, hnext⟩ := Outcome.of_bind hb
  obtain ⟨hv, front, hfront, hbytes⟩ := (h _ _ _).1 hitem
  exact ⟨v, front, rest, hv, hfront, hbytes.symm, hnext⟩

end Decoder.Reads

section Elements

theorem takeBytes_reads (count : Nat) :
    (takeBytes count).Reads (fun front => front.length = count) fun front => {front} := by
  intro bytes raw rest
  constructor
  · intro h
    obtain ⟨hlength, h⟩ := Outcome.of_guard h
    obtain ⟨rfl, rfl⟩ := Prod.mk.inj (Except.ok.inj h)
    refine ⟨Nat.le_antisymm ?_ (Nat.not_lt.1 hlength), _, rfl, List.take_append_drop count bytes⟩
    rw [List.length_take]
    exact Nat.min_le_left _ _
  · rintro ⟨hlength, front, rfl, rfl⟩
    exact takeBytes_append hlength rest

theorem decodeBelow_reads {order : Nat} (horder : order ≤ 1 <<< 255) :
    (decodeBelow order).Reads (fun _ => True)
      fun x => {LittleEndian.encode elementBytes x.val} := by
  intro bytes x rest
  constructor
  · intro h
    obtain ⟨_, raw, rest', hlength, rfl, rfl, htaken⟩ := (takeBytes_reads _).of_bind h
    obtain ⟨-, hread⟩ := Outcome.of_guard htaken
    obtain ⟨hlt, hread⟩ := Outcome.of_dite hread
    obtain ⟨rfl, rfl⟩ := Prod.mk.inj (Except.ok.inj hread)
    have hraw := LittleEndian.encode_decode raw
    rw [hlength] at hraw
    exact ⟨trivial, raw, hraw.symm, rfl⟩
  · rintro ⟨-, front, rfl, rfl⟩
    exact decodeBelow_readsBack horder x rest

theorem Scalar.reads : Scalar.decode.Reads (fun _ => True) fun x => {Scalar.encode x} :=
  decodeBelow_reads (by decide)

/-- A number is its low part and what the high part stands for. -/
theorem flagged_split (n : Nat) : n % (1 <<< 254) + (n >>> 254) <<< 254 = n := by
  rw [Nat.one_shiftLeft, Nat.shiftRight_eq_div_pow, Nat.shiftLeft_eq, Nat.mul_comm]
  exact Nat.mod_add_div n (2 ^ 254)

theorem Base.encodeFlagged_of_parts {raw : Bytes} {x : Base} {flag : PointFlag}
    (hlength : raw.length = elementBytes) (hflag : LittleEndian.decode raw >>> 254 = flag.bits)
    (hx : LittleEndian.decode raw % (1 <<< 254) = x.val) : Base.encodeFlagged flag x = raw := by
  rw [Base.encodeFlagged, ← hx, ← hflag, flagged_split, ← hlength, LittleEndian.encode_decode]

theorem Base.decodeFlagged_reads :
    Base.decodeFlagged.Reads (fun _ => True) fun v => {Base.encodeFlagged v.2 v.1} := by
  rintro bytes ⟨x, flag⟩ rest
  constructor
  · intro h
    obtain ⟨_, raw, rest', hlength, rfl, rfl, htaken⟩ := (takeBytes_reads _).of_bind h
    dsimp only at htaken
    split at htaken
    case h_4 => cases htaken
    all_goals
      rename_i hflag
      obtain ⟨hlt, hread⟩ := Outcome.of_dite htaken
      obtain ⟨hpair, rfl⟩ := Prod.mk.inj (Except.ok.inj hread)
      obtain ⟨rfl, rfl⟩ := Prod.mk.inj hpair
      refine ⟨trivial, raw, Eq.symm ?_, rfl⟩
      exact Base.encodeFlagged_of_parts hlength hflag rfl
  · rintro ⟨-, front, rfl, rfl⟩
    exact Base.decodeFlagged_encodeFlagged flag x rest

end Elements

section Lists

variable {α : Type} {item : Decoder α} {valid : α → Prop} {spellings : α → Language UInt8}

theorem decodeMany_reads (h : item.Reads valid spellings) (count : Nat) :
    Decoder.Reads (decodeMany item count) (fun vs => vs.length = count ∧ ∀ v ∈ vs, valid v)
      fun vs => (vs.map spellings).prod := by
  induction count with
  | zero =>
      intro bytes vs rest
      constructor
      · intro hread
        obtain ⟨rfl, rfl⟩ := Prod.mk.inj (Except.ok.inj hread)
        exact ⟨⟨rfl, List.forall_mem_nil _⟩, [], rfl, rfl⟩
      · rintro ⟨⟨hlength, -⟩, front, hfront, rfl⟩
        obtain rfl := List.eq_nil_of_length_eq_zero hlength
        obtain rfl : front = [] := hfront
        rfl
  | succ count ih =>
      intro bytes vs rest
      constructor
      · intro hread
        obtain ⟨v, front, rest', hv, hfront, rfl, hfirst⟩ := h.of_bind hread
        obtain ⟨others, fronts, rest'', hothers, hfronts, rfl, hall⟩ := ih.of_bind hfirst
        obtain ⟨rfl, rfl⟩ := Prod.mk.inj (Except.ok.inj hall)
        refine ⟨⟨congrArg (· + 1) hothers.1, List.forall_mem_cons.2 ⟨hv, hothers.2⟩⟩,
          front ++ fronts, ?_, List.append_assoc _ _ _⟩
        dsimp only
        rw [List.map_cons, List.prod_cons]
        exact Language.append_mem_mul hfront hfronts
      · rintro ⟨⟨hlength, hvalid⟩, front, hfront, rfl⟩
        cases vs with
        | nil => cases hlength
        | cons v others =>
            dsimp only at hfront
            rw [List.map_cons, List.prod_cons] at hfront
            obtain ⟨first, hfirst, fronts, hfronts, rfl⟩ := hfront
            obtain ⟨hv, hothers⟩ := List.forall_mem_cons.1 hvalid
            have hrest := ih.read ⟨Nat.succ.inj hlength, hothers⟩ hfronts rest
            rw [decodeMany]
            simp only [List.append_assoc, h.read hv hfirst, hrest, bind, Except.bind, pure,
              Except.pure]

/-- The spellings of a list: its length, then a spelling of each of its items. -/
def listSpellings (spellings : α → Language UInt8) (vs : List α) : Language UInt8 :=
  {LittleEndian.encode 8 vs.length} * (vs.map spellings).prod

/-- Items that are spelled in one way make a list that is. -/
theorem listSpellings_eq {write : α → Bytes} {vs : List α} (h : ∀ v ∈ vs, spellings v = {write v}) :
    listSpellings spellings vs = {encodeList write vs} := by
  have hitems : (vs.map spellings).prod = {vs.flatMap write} := by
    induction vs with
    | nil => rfl
    | cons v others ih =>
        obtain ⟨hv, hothers⟩ := List.forall_mem_cons.1 h
        rw [List.map_cons, List.prod_cons, hv, ih hothers, List.flatMap_cons,
          singleton_mul_singleton]
  rw [listSpellings, hitems, encodeList, singleton_mul_singleton]

theorem length_of_mem_prod {size : Nat} (hsize : ∀ v, ∀ front ∈ spellings v, front.length = size)
    {vs : List α} {front : Bytes} (h : front ∈ (vs.map spellings).prod) :
    front.length = vs.length * size := by
  induction vs generalizing front with
  | nil =>
      obtain rfl : front = [] := h
      rw [List.length_nil, List.length_nil, Nat.zero_mul]
  | cons v others ih =>
      rw [List.map_cons, List.prod_cons] at h
      obtain ⟨first, hfirst, fronts, hfronts, rfl⟩ := h
      rw [List.length_append, hsize v first hfirst, ih hfronts, List.length_cons, Nat.succ_mul,
        Nat.add_comm]

theorem length_of_mem_listSpellings {size : Nat}
    (hsize : ∀ v, ∀ front ∈ spellings v, front.length = size) {vs : List α} {front : Bytes}
    (h : front ∈ listSpellings spellings vs) : front.length = 8 + vs.length * size := by
  obtain ⟨first, rfl, items, hitems, rfl⟩ := h
  rw [List.length_append, LittleEndian.length_encode, length_of_mem_prod hsize hitems]

/-- A list whose items take up some bytes each is read if the items are and pass the check, and their
number can be told. -/
theorem decodeList_reads {check : α → Bool} {size : Nat} (h : item.Reads valid spellings)
    (hsize : ∀ v, ∀ front ∈ spellings v, front.length = size) (hpositive : 0 < size) :
    Decoder.Reads (decodeList item check)
      (fun vs => (∀ v ∈ vs, valid v ∧ check v = true) ∧ vs.length < 256 ^ 8)
      (listSpellings spellings) := by
  have hfew {vs : List α} {items : Bytes} (hitems : items ∈ (vs.map spellings).prod) :
      vs.length ≤ items.length := by
    rw [length_of_mem_prod hsize hitems]
    exact Nat.le_mul_of_pos_right _ hpositive
  intro bytes vs rest
  constructor
  · intro hread
    obtain ⟨_, raw, rest', hraw, rfl, rfl, htaken⟩ := (takeBytes_reads 8).of_bind hread
    obtain ⟨vs', items, rest'', ⟨hcount, hvalid⟩, hitems, rfl, hmany⟩ :=
      (decodeMany_reads h _).of_bind htaken
    obtain ⟨hcheck, hchecked⟩ := Outcome.of_guard_else hmany
    obtain ⟨rfl, rfl⟩ := Prod.mk.inj (Except.ok.inj hchecked)
    -- The bytes that are left do not hold more items than there are, so none has been left out.
    have hlength : vs'.length = LittleEndian.decode raw := by
      have hle := hfew hitems
      rw [List.length_append] at hcount
      omega
    have hlt := LittleEndian.decode_lt raw
    rw [hraw, ← hlength] at hlt
    have hfirst := LittleEndian.encode_decode raw
    rw [hraw, ← hlength] at hfirst
    exact ⟨⟨fun v hv => ⟨hvalid v hv, List.all_eq_true.1 hcheck v hv⟩, hlt⟩, raw ++ items,
      Language.append_mem_mul hfirst.symm hitems, List.append_assoc _ _ _⟩
  · rintro ⟨⟨hvalid, hlt⟩, front, ⟨first, rfl, items, hitems, rfl⟩, rfl⟩
    have hle := hfew hitems
    have hcount : min vs.length ((items ++ rest).length + 1) = vs.length := by
      rw [List.length_append]
      omega
    have hitems := (decodeMany_reads h vs.length).read ⟨rfl, fun v hv => (hvalid v hv).1⟩ hitems rest
    have hcheck := List.all_eq_true.2 fun v hv => (hvalid v hv).2
    dsimp only
    rw [decodeList, List.append_assoc]
    simp only [takeBytes_append (LittleEndian.length_encode 8 vs.length), bind, Except.bind,
      LittleEndian.decode_encode hlt, hcount, hitems, if_pos hcheck]

end Lists

namespace G1

/-- The spellings of a point.  The coordinate of the neutral element is idle. -/
def spellings (idle : Set Base) : G1 → Language UInt8
  | .infinity => Base.encodeFlagged .infinity '' idle
  | p => {encode p}

variable {idle : Set Base} {p : G1} {front : Bytes}

theorem mem_spellings_infinity :
    front ∈ spellings idle .infinity ↔ ∃ x ∈ idle, Base.encodeFlagged .infinity x = front :=
  Iff.rfl

theorem mem_spellings_affine {x y : Base} :
    front ∈ spellings idle (.affine x y) ↔ front = encode (.affine x y) :=
  Iff.rfl

/-- A point without an idle coordinate, or whose idle coordinate is zero, is spelled as it is
written. -/
theorem spellings_eq (h : p = .infinity → idle = {0}) : p.spellings idle = {encode p} := by
  cases p with
  | infinity =>
      rw [h rfl]
      exact Set.image_singleton
  | affine x y => rfl

theorem length_of_mem_spellings (h : front ∈ p.spellings idle) : front.length = 32 := by
  cases p with
  | infinity =>
      obtain ⟨x, -, rfl⟩ := mem_spellings_infinity.1 h
      exact Base.length_encodeFlagged _ x
  | affine x y => rw [mem_spellings_affine.1 h, length_encode]

/-- The second coordinate that a flag selects makes a point that is written with this flag. -/
theorem encode_of_flag {x low high : Base} {flag : PointFlag} (h : ordinates? x = some (low, high))
    (hflag : flag ≠ .infinity) :
    Valid (.affine x (if flag = .larger then high else low)) ∧
      encode (.affine x (if flag = .larger then high else low)) = Base.encodeFlagged flag x := by
  obtain ⟨⟨hlow, hle⟩, hhigh, hnle⟩ := of_ordinates? h
  cases flag with
  | smaller =>
      refine ⟨beq_iff_eq.2 hlow, ?_⟩
      rw [if_neg (by decide), encode, if_pos hle]
  | larger =>
      refine ⟨beq_iff_eq.2 hhigh, ?_⟩
      rw [if_pos rfl, encode, if_neg hnle]
  | infinity => exact absurd rfl hflag

theorem reads : decode.Reads Valid (spellings Set.univ) := by
  intro bytes p rest
  constructor
  · intro h
    rw [decode] at h
    obtain ⟨⟨x, flag⟩, _, rest', -, rfl, rfl, hread⟩ := Base.decodeFlagged_reads.of_bind h
    dsimp only at hread ⊢
    split at hread
    · obtain ⟨rfl, rfl⟩ := Prod.mk.inj (Except.ok.inj hread)
      exact ⟨rfl, _, mem_spellings_infinity.2 ⟨x, Set.mem_univ x, rfl⟩, rfl⟩
    · rename_i hfinite
      split at hread
      · cases hread
      · rename_i low high hordinates
        obtain ⟨hvalid, hencode⟩ := encode_of_flag hordinates hfinite
        obtain ⟨rfl, rfl⟩ := Prod.mk.inj (Except.ok.inj hread)
        exact ⟨hvalid, _, mem_spellings_affine.2 hencode.symm, rfl⟩
  · rintro ⟨hp, front, hfront, rfl⟩
    cases p with
    | infinity =>
        obtain ⟨x, -, rfl⟩ := mem_spellings_infinity.1 hfront
        exact Outcome.bind_eq_ok (Base.decodeFlagged_encodeFlagged .infinity x rest) rfl
    | affine x y =>
        rw [mem_spellings_affine.1 hfront]
        exact readsBack hp rest

theorem reads_list :
    Decoder.Reads (decodeList decode fun _ => true)
      (fun ps => (∀ p ∈ ps, p.Valid) ∧ ps.length < 256 ^ 8)
      (listSpellings (spellings Set.univ)) :=
  (decodeList_reads reads (fun _ _ => length_of_mem_spellings) (by decide)).congr fun ps =>
    and_congr_left' (forall₂_congr fun p _ => and_iff_left rfl)

end G1

namespace G2

/-- The spellings of a point.  Both parts of the coordinate of the neutral element are idle. -/
def spellings (idle : Set Base) : G2 → Language UInt8
  | .infinity => Set.image2 (fun x y => Base.encode x ++ Base.encodeFlagged .infinity y) idle idle
  | p => {encode p}

variable {idle : Set Base} {p : G2} {front : Bytes}

theorem mem_spellings_infinity :
    front ∈ spellings idle .infinity ↔
      ∃ x ∈ idle, ∃ y ∈ idle, Base.encode x ++ Base.encodeFlagged .infinity y = front :=
  Iff.rfl

theorem mem_spellings_affine {x y : Quadratic} :
    front ∈ spellings idle (.affine x y) ↔ front = encode (.affine x y) :=
  Iff.rfl

theorem spellings_eq (h : p = .infinity → idle = {0}) : p.spellings idle = {encode p} := by
  cases p with
  | infinity =>
      rw [h rfl]
      exact Set.image2_singleton
  | affine x y => rfl

theorem length_of_mem_spellings (h : front ∈ p.spellings idle) : front.length = 64 := by
  cases p with
  | infinity =>
      obtain ⟨x, -, y, -, rfl⟩ := mem_spellings_infinity.1 h
      rw [List.length_append, Base.length_encodeFlagged, Base.encode, LittleEndian.length_encode]
      rfl
  | affine x y => rw [mem_spellings_affine.1 h, length_encode]

theorem encode_of_flag {x low high : Quadratic} {flag : PointFlag}
    (h : ordinates? x = some (low, high)) (hflag : flag ≠ .infinity) :
    Point.isOnCurve coefficient (.affine x (if flag = .larger then high else low)) = true ∧
      encode (.affine x (if flag = .larger then high else low)) =
        Base.encode x.c0 ++ Base.encodeFlagged flag x.c1 := by
  obtain ⟨⟨hlow, hle⟩, hhigh, hnle⟩ := of_ordinates? h
  cases flag with
  | smaller =>
      refine ⟨beq_iff_eq.2 hlow, ?_⟩
      rw [if_neg (by decide), encode, if_pos hle]
  | larger =>
      refine ⟨beq_iff_eq.2 hhigh, ?_⟩
      rw [if_pos rfl, encode, if_neg hnle]
  | infinity => exact absurd rfl hflag

theorem reads_unchecked :
    decodeUnchecked.Reads (fun p => p.isOnCurve coefficient = true) (spellings Set.univ) := by
  have hfirst := @decodeBelow_reads baseOrder (by decide)
  intro bytes p rest
  constructor
  · intro h
    obtain ⟨c0, _, rest', -, rfl, rfl, hread⟩ := hfirst.of_bind h
    obtain ⟨⟨c1, flag⟩, _, rest'', -, rfl, rfl, hread'⟩ := Base.decodeFlagged_reads.of_bind hread
    dsimp only at hread' ⊢
    rw [← List.append_assoc]
    split at hread'
    · obtain ⟨rfl, rfl⟩ := Prod.mk.inj (Except.ok.inj hread')
      exact ⟨rfl, _, mem_spellings_infinity.2 ⟨c0, Set.mem_univ c0, c1, Set.mem_univ c1, rfl⟩, rfl⟩
    · rename_i hfinite
      split at hread'
      · cases hread'
      · rename_i low high hordinates
        obtain ⟨hvalid, hencode⟩ := encode_of_flag hordinates hfinite
        obtain ⟨rfl, rfl⟩ := Prod.mk.inj (Except.ok.inj hread')
        exact ⟨hvalid, _, mem_spellings_affine.2 hencode.symm, rfl⟩
  · rintro ⟨hp, front, hfront, rfl⟩
    cases p with
    | infinity =>
        obtain ⟨x, -, y, -, rfl⟩ := mem_spellings_infinity.1 hfront
        have hx := @decodeBelow_readsBack baseOrder (by decide) x
          (Base.encodeFlagged .infinity y ++ rest)
        rw [List.append_assoc]
        refine Outcome.bind_eq_ok hx ?_
        exact Outcome.bind_eq_ok (Base.decodeFlagged_encodeFlagged .infinity y rest) rfl
    | affine x y =>
        rw [mem_spellings_affine.1 hfront]
        exact readsBack_unchecked hp rest

theorem reads : decode.Reads Valid (spellings Set.univ) := by
  intro bytes p rest
  constructor
  · intro h
    obtain ⟨p', front, rest', hcurve, hfront, rfl, hread⟩ := reads_unchecked.of_bind h
    obtain ⟨hgroup, hchecked⟩ := Outcome.of_guard_else hread
    obtain ⟨rfl, rfl⟩ := Prod.mk.inj (Except.ok.inj hchecked)
    exact ⟨⟨hcurve, hgroup⟩, front, hfront, rfl⟩
  · rintro ⟨hp, front, hfront, rfl⟩
    rw [decode]
    simp only [reads_unchecked.read hp.onCurve hfront, bind, Except.bind, hp.inGroup, if_true]

/-- The points of a list are checked after all of them have been read. -/
theorem reads_list :
    Decoder.Reads (decodeList decodeUnchecked isInGroup)
      (fun ps => (∀ p ∈ ps, p.Valid) ∧ ps.length < 256 ^ 8)
      (listSpellings (spellings Set.univ)) :=
  (decodeList_reads reads_unchecked (fun _ _ => length_of_mem_spellings) (by decide)).congr fun ps =>
    and_congr_left' (forall₂_congr fun p _ => ⟨fun h => ⟨h.1, h.2⟩, fun h => ⟨h.onCurve, h.inGroup⟩⟩)

end G2
end PrivatePresentation
