import PrivatePresentation.Presentation.Request
import PrivatePresentation.Proofs.Json.Canonical
import PrivatePresentation.Proofs.Json.Members
import PrivatePresentation.Proofs.Schema.WellFormed
import PrivatePresentation.Proofs.Time.Calendar
import PrivatePresentation.Proofs.Time.Scan

/-!
Instants in whole seconds.  The clock, seconds since 1970, the strict form and dates give whole seconds; a
stored text keeps its part of a second, and a sum that goes beyond the calendar ends in the last part of its
last second.  Which part of a second an instant has is told by where it comes from.
-/

namespace PrivatePresentation.Timestamp

-- Powers of numbers are the core ones, as in the reader.
attribute [local instance (high)] instPowNat

theorem nanos_parse {text : String} {t : Timestamp} (ht : parse text = .ok t) : t.nanos = 0 := by
  unfold parse at ht
  split at ht
  · rw [← Except.ok.inj ht]
    rfl
  · exact nomatch ht

theorem nanos_parseDate {text : String} {t : Timestamp} (ht : parseDate text = .ok t) : t.nanos = 0 := by
  unfold parseDate at ht
  dsimp only at ht
  split at ht
  · rename_i u hu
    rw [← Except.ok.inj ht]
    exact nanos_parse hu
  · split at ht
    · rw [← Except.ok.inj ht]
      rfl
    · exact nomatch ht

section Digits

/-- Digits are worth nothing exactly if they are zeros. -/
theorem digitsValue_eq_zero {digits : List Char} (hdigits : ∀ c ∈ digits, isDigit c = true) :
    digitsValue digits = 0 ↔ ∀ c ∈ digits, c = '0' := by
  induction digits using List.reverseRecOn with
  | nil => simp [digitsValue]
  | append_singleton digits c ih =>
      have hc := hdigits c (by simp)
      have hzero : c.toNat - 48 = 0 ↔ c = '0' := by
        constructor
        · intro hnone
          apply Char.toNat_inj.1
          have hlow := (Decimal.isDigit_iff.1 hc).1
          change c.toNat = 48
          omega
        · rintro rfl
          rfl
      rw [digitsValue_eq, Decimal.digitsValue_concat, ← digitsValue_eq, List.forall_mem_append,
        ← ih fun d hd => hdigits d (List.mem_append_left _ hd)]
      simp [← hzero]

end Digits

section Stored

/-- What stands after the first colon of a text. -/
def afterColon (s : List Char) : List Char := (s.dropWhile (· != ':')).drop 1

/-- A text from its seconds on. -/
def fromSeconds (s : List Char) : List Char := Text.trimStartChars (afterColon (afterColon s))

/-- The digits of the seconds of a text. -/
def secondDigits (s : List Char) : List Char := ((fromSeconds s).take 2).takeWhile isDigit

/-- The first nine digits after a point. -/
def pointDigits : List Char → List Char
  | '.' :: rest => (rest.take 9).takeWhile isDigit
  | _ => []

/-- The digits of the part of a second of a text. -/
def partDigits (s : List Char) : List Char := pointDigits ((fromSeconds s).drop (secondDigits s).length)

/-- The part of a second of a text in nanoseconds; second sixty is a second more. -/
def toldNanos (s : List Char) : Nat :=
  digitsValue (partDigits s) * 10 ^ (9 - (partDigits s).length) +
    if digitsValue (secondDigits s) = 60 then nanosPerSecond else 0

variable {s rest : List Char}

theorem ColonFree.afterColon_eq (h : ColonFree s (':' :: rest)) : afterColon s = rest := by
  obtain ⟨taken, rfl, htaken⟩ := h
  have hpassed : ∀ c ∈ taken, (c != ':') = true := by
    intro c hc
    rw [bne_iff_ne]
    rintro rfl
    exact htaken hc
  rw [afterColon, List.dropWhile_append_of_pos hpassed]
  rfl

theorem of_fraction {nanos : Nat} (hnanos : fraction s = .ok (nanos, rest)) :
    nanos = digitsValue (pointDigits s) * 10 ^ (9 - (pointDigits s).length) := by
  unfold fraction at hnanos
  split at hnanos
  · rename_i tail
    unfold nanoseconds at hnanos
    obtain ⟨⟨n, rest'⟩, hn, hnanos⟩ := Outcome.of_bind hnanos
    obtain ⟨rfl, -⟩ := Prod.mk.inj (Except.ok.inj hnanos)
    obtain ⟨htail, -⟩ := of_number hn
    have htaken : tail.take (tail.length - rest'.length) = (tail.take 9).takeWhile isDigit := by
      have hlength := congrArg List.length htail
      rw [List.length_append] at hlength
      have hdropped : tail.length - rest'.length = ((tail.take 9).takeWhile isDigit).length := by omega
      rw [hdropped]
      exact List.prefix_iff_eq_take.1 ⟨rest', htail.symm⟩ |>.symm
    rw [htaken]
    rfl
  · rename_i hpoint
    obtain ⟨rfl, -⟩ := Prod.mk.inj (Except.ok.inj hnanos)
    have hnone : pointDigits s = [] := by
      unfold pointDigits
      split
      · exact absurd rfl (hpoint _)
      · rfl
    rw [hnone]
    rfl

theorem nanos_assemble {date : CalendarDate} {hour minute second nanos : Nat} {offset : Int}
    {t : Timestamp} (ht : assemble date hour minute second nanos offset = .ok t) :
    t.nanos = nanos + if second = 60 then nanosPerSecond else 0 := by
  unfold assemble at ht
  obtain ⟨-, ht⟩ := Outcome.of_guard ht
  obtain ⟨-, ht⟩ := Outcome.of_guard ht
  obtain ⟨-, ht⟩ := Outcome.of_guard ht
  rw [← Except.ok.inj ht]

/-- A stored text is an instant with the second that stands after its second colon. -/
theorem of_scanLenient {t : Timestamp} (ht : scanLenient s = .ok t) :
    ∃ date hour minute nanos offset,
      assemble date hour minute (digitsValue (secondDigits s)) nanos offset = .ok t ∧
        nanos = digitsValue (partDigits s) * 10 ^ (9 - (partDigits s).length) := by
  unfold scanLenient at ht
  obtain ⟨⟨year, s₁⟩, hyear, ht⟩ := Outcome.of_bind ht
  obtain ⟨⟨_, s₂⟩, hfirst, ht⟩ := Outcome.of_bind ht
  obtain ⟨⟨month, s₃⟩, hmonth, ht⟩ := Outcome.of_bind ht
  obtain ⟨⟨_, s₄⟩, hlast, ht⟩ := Outcome.of_bind ht
  obtain ⟨⟨day, s₅⟩, hday, ht⟩ := Outcome.of_bind ht
  obtain ⟨⟨_, s₆⟩, hseparator, ht⟩ := Outcome.of_bind ht
  obtain ⟨⟨hour, s₇⟩, hhour, ht⟩ := Outcome.of_bind ht
  obtain ⟨⟨_, s₈⟩, hcolon, ht⟩ := Outcome.of_bind ht
  obtain ⟨⟨minute, s₉⟩, hminute, ht⟩ := Outcome.of_bind ht
  obtain ⟨⟨_, s₁₀⟩, hcolon', ht⟩ := Outcome.of_bind ht
  obtain ⟨⟨second, s₁₁⟩, hsecond, ht⟩ := Outcome.of_bind ht
  obtain ⟨⟨nanos, s₁₂⟩, hnanos, ht⟩ := Outcome.of_bind ht
  have hassembled : ∃ offset, assemble ⟨year, month, day⟩ hour minute second nanos offset = .ok t := by
    dsimp only at ht
    split at ht
    · obtain ⟨-, ht⟩ := Outcome.of_guard ht
      exact ⟨_, ht⟩
    · obtain ⟨⟨offset, s₁₃⟩, -, ht⟩ := Outcome.of_bind ht
      obtain ⟨-, ht⟩ := Outcome.of_guard ht
      exact ⟨_, ht⟩
  -- Nothing before the hours' end has a colon, so the first two colons are those of the clock.
  have hclock : afterColon s = s₈ := by
    apply ColonFree.afterColon_eq
    have hdate : ColonFree s s₅ :=
      (colonFree_of_lenientYear hyear).trans ((colonFree_trimStartChars s₁).trans
        ((colonFree_of_hyphen hfirst).trans ((colonFree_of_lenientPart hmonth).trans
          ((colonFree_trimStartChars s₃).trans ((colonFree_of_hyphen hlast).trans
            (colonFree_of_lenientPart hday))))))
    rw [← literal_eq_ok.1 hcolon]
    exact hdate.trans ((colonFree_of_dateTimeSeparator hseparator).trans
      ((colonFree_of_lenientPart hhour).trans (colonFree_trimStartChars s₇)))
  have hseconds : fromSeconds s = Text.trimStartChars s₁₀ := by
    rw [fromSeconds, hclock]
    apply congrArg
    apply ColonFree.afterColon_eq
    rw [← literal_eq_ok.1 hcolon']
    exact (colonFree_of_lenientPart hminute).trans (colonFree_trimStartChars s₉)
  obtain ⟨hnumber, -⟩ := bounded_eq_ok.1 hsecond
  rw [← hseconds] at hnumber
  obtain ⟨hsplit, -, hvalue⟩ := of_number hnumber
  have hpart : partDigits s = pointDigits s₁₁ := by
    have hrest : fromSeconds s = secondDigits s ++ s₁₁ := hsplit
    rw [partDigits, hrest, List.drop_left]
  obtain ⟨offset, hassembled⟩ := hassembled
  rw [hpart, secondDigits, hvalue]
  exact ⟨_, hour, minute, nanos, offset, hassembled, of_fraction hnanos⟩

variable {text : String} {t : Timestamp}

/-- A stored text keeps its part of a second. -/
theorem nanos_parseStored (ht : parseStored text = .ok t) : t.nanos = toldNanos text.toList := by
  obtain ⟨date, hour, minute, nanos, offset, hassembled, hnanos⟩ := of_scanLenient ht
  rw [nanos_assemble hassembled, hnanos, toldNanos]

theorem parseStored_within (ht : parseStored text = .ok t) : t.InCalendar := by
  obtain ⟨date, hour, minute, nanos, offset, hassembled, -⟩ := of_scanLenient ht
  exact assemble_within hassembled

/-- A stored text is in whole seconds if the digits after its point are zeros, of which nine count, and it
is no leap second. -/
theorem toldNanos_eq_zero : toldNanos s = 0 ↔
    (∀ c ∈ partDigits s, c = '0') ∧ digitsValue (secondDigits s) ≠ 60 := by
  have hdigits : ∀ c ∈ partDigits s, isDigit c = true := by
    intro c hc
    unfold partDigits pointDigits at hc
    split at hc
    · exact List.mem_takeWhile_imp hc
    · exact absurd hc List.not_mem_nil
  rw [← digitsValue_eq_zero hdigits, toldNanos, Nat.add_eq_zero_iff, Nat.mul_eq_zero]
  by_cases hleap : digitsValue (secondDigits s) = 60
  · simp [hleap, nanosPerSecond]
  · simp [hleap]

end Stored

/-- Where an instant comes from: from the clock or any other instant that is cut, from seconds, from a
text, or from another instant and some seconds. -/
inductive Origin where
  | clock (t : Timestamp) (ht : t.InCalendar)
  | seconds (n : Int)
  | instant (text : String)
  | date (text : String)
  | stored (text : String)
  | later (origin : Origin) (n : Nat)

namespace Origin

/-- The instant, if there is one. -/
def timestamp? : Origin → Option Timestamp
  | .clock t _ => some t.truncated
  | .seconds n => (ofSeconds n).toOption
  | .instant text => (parse text).toOption
  | .date text => (parseDate text).toOption
  | .stored text => (parseStored text).toOption
  | .later o n => o.timestamp?.map (·.plusSeconds n)

/-- The sum goes beyond the last second of the calendar. -/
def overruns (o : Origin) (n : Nat) : Bool :=
  o.timestamp?.any fun t => maxSeconds < t.seconds + n

/-- The part of a second in nanoseconds.  Adding seconds leaves a leap second, and a sum that goes beyond
the calendar ends in its last part. -/
def part : Origin → Nat
  | .stored text => toldNanos text.toList
  | .later o n =>
    if n = 0 then o.part
    else if o.overruns n then nanosPerSecond - 1
    else o.part % nanosPerSecond
  | _ => 0

/-- No stored text tells a part of a second, and no sum goes beyond the calendar. -/
def IsExact : Origin → Prop
  | .stored text => toldNanos text.toList = 0
  | .later o n => o.IsExact ∧ o.overruns n = false
  | _ => True

variable {o : Origin} {t : Timestamp}

theorem part_of_isExact (hexact : o.IsExact) : o.part = 0 := by
  induction o with
  | stored text => exact hexact
  | later o n ih =>
      have hpart := ih hexact.1
      by_cases hn : n = 0
      · simp [part, hn, hpart]
      · simp [part, hn, hexact.2, hpart]
  | _ => rfl

/-- An instant lies in the calendar, and has the part of a second that its origin tells. -/
theorem of_timestamp? (ht : o.timestamp? = some t) : t.InCalendar ∧ t.nanos = o.part := by
  induction o generalizing t with
  | clock u hu =>
      obtain rfl := Option.some.inj ht
      exact ⟨hu, rfl⟩
  | seconds n =>
      have hn := Outcome.of_toOption ht
      unfold ofSeconds at hn
      obtain ⟨hwithin, hn⟩ := Outcome.of_guard_else hn
      obtain rfl := Except.ok.inj hn
      exact ⟨hwithin, rfl⟩
  | instant text =>
      have hparse := Outcome.of_toOption ht
      exact ⟨parse_within hparse, nanos_parse hparse⟩
  | date text =>
      have hparse := Outcome.of_toOption ht
      exact ⟨parseDate_within hparse, nanos_parseDate hparse⟩
  | stored text =>
      have hparse := Outcome.of_toOption ht
      exact ⟨parseStored_within hparse, nanos_parseStored hparse⟩
  | later o n ih =>
      obtain ⟨u, hu, rfl⟩ := Option.map_eq_some_iff.1 ht
      obtain ⟨hwithin, hpart⟩ := ih hu
      refine ⟨plusSeconds_inCalendar hwithin n, ?_⟩
      have hoverruns : o.overruns n = decide (maxSeconds < u.seconds + n) := by
        rw [overruns, hu, Option.any_some]
      rw [part, hoverruns, plusSeconds, ← hpart]
      by_cases hn : n = 0
      · simp [hn]
      · by_cases hover : maxSeconds < u.seconds + n
        · simp [hn, hover, latest]
        · simp [hn, hover]

theorem eq_latest_of_overruns {n : Nat} (ht : (later o n).timestamp? = some t)
    (hover : o.overruns n = true) : t = latest := by
  obtain ⟨u, hu, rfl⟩ := Option.map_eq_some_iff.1 ht
  have hlast := (of_timestamp? hu).1.2
  rw [overruns, hu, Option.any_some, decide_eq_true_eq] at hover
  have hn : n ≠ 0 := by
    rintro rfl
    omega
  rw [plusSeconds, if_neg hn, if_pos hover]

end Origin

section Wire

theorem ofSeconds_seconds {t : Timestamp} (ht : t.InCalendar) : ofSeconds t.seconds = .ok t.truncated :=
  if_pos ht

theorem truncated_eq_self {t : Timestamp} : t.truncated = t ↔ t.nanos = 0 := by
  constructor
  · intro h
    rw [← h]
    rfl
  · intro h
    rw [truncated, ← h]

/-- An integer is read back in the place of an integer. -/
theorem readInteger_integer {n : Int} {expected : String} {accept : Int → Bool} {rest : Bytes}
    (fits : Json.minSigned ≤ n ∧ n ≤ Json.maxUnsigned) (haccept : accept n = true)
    (hrest : Json.Delimited rest) :
    Json.readInteger expected accept
      (Canonical.writtenBytes (.number (.integer n fits)) ++ rest) = .ok (n, rest) := by
  rw [Canonical.writtenBytes_integer]
  by_cases hn : n < 0
  · obtain ⟨k, rfl⟩ := Int.exists_eq_neg_ofNat hn.le
    have hnumber := @Json.readNumber_digitBytes k rest true hrest
    rw [Json.finishNumber, Json.number?_negative (by omega) fits] at hnumber
    rw [if_pos hn, Int.natAbs_neg, Int.natAbs_natCast]
    simp [Json.readInteger, Json.skipSpace, Json.isSpace, hnumber, haccept, bind, Except.bind]
  · obtain ⟨k, rfl⟩ := Int.eq_ofNat_of_zero_le (Int.not_lt.1 hn)
    have hnumber := @Json.readNumber_digitBytes k rest false hrest
    rw [Json.finishNumber, Json.number?_natural k fits] at hnumber
    rw [if_neg hn, Int.natAbs_natCast]
    obtain ⟨d, ds, hdigits, hd, -⟩ := Json.head_digitBytes k
    rw [hdigits, List.cons_append] at hnumber ⊢
    have hspace : Json.skipSpace (d :: (ds ++ rest)) = d :: (ds ++ rest) :=
      List.dropWhile_cons_of_neg (by rw [Json.isSpace_of_isDigit hd]; exact Bool.false_ne_true)
    have hminus : d ≠ 0x2D := Json.ne_of_isDigit hd rfl
    simp [Json.readInteger, hspace, hminus, hd, hnumber, haccept, bind, Except.bind]

/-- The seconds of an instant are read back as a field of a record. -/
theorem read_second {t : Timestamp} (ht : t.InCalendar) {rest : Bytes} (hrest : Json.Delimited rest) :
    Json.FieldKind.second.read (Text.utf8 (Json.int t.seconds).compact ++ rest) =
      .ok (.int t.seconds, rest) := by
  have hfits := ht.fitsSigned
  have hle : Json.maxSigned ≤ Json.maxUnsigned := by decide
  have hbytes : Text.utf8 (Json.int t.seconds).compact =
      Canonical.writtenBytes (.number (.integer t.seconds ⟨hfits.1, hfits.2.trans hle⟩)) := by
    rw [Json.ofInt_eq ⟨hfits.1, hfits.2.trans hle⟩, Text.utf8_eq_utf8Chars, Json.compact,
      String.toList_ofList]
    rfl
  rw [hbytes]
  unfold Json.FieldKind.second Json.FieldKind.read
  apply Outcome.bind_eq_ok
  · apply readInteger_integer _ _ hrest
    rw [Bool.and_eq_true, decide_eq_true_eq, decide_eq_true_eq]
    exact hfits
  · simp only [ofSeconds_seconds ht]
    rfl

theorem get?_toJson (r : PresentationRequest) :
    r.toJson.get? "expires_at" = some (.int r.expiresAt.seconds) :=
  Json.Members.get?_insert_self

/-- Values of a written request are read as a request that expires with the second. -/
theorem ofValues?_seconds {t : Timestamp} (ht : t.InCalendar) {idText hashText : String} {id : RequestId}
    {hash : ContentDigest} (hid : RequestId.parse idText = .ok id)
    (hhash : ContentDigest.parse hashText = .ok hash) (schemaText uri : String) (inputs : Json.Members) :
    PresentationRequest.ofValues? [.string idText, .string schemaText, .string hashText, .object inputs,
      .string uri, .int t.seconds] = some ⟨id, schemaText, hash, inputs, uri, t.truncated, none⟩ := by
  have hfits := ht.fitsSigned
  have hle : Json.maxSigned ≤ Json.maxUnsigned := by decide
  rw [Json.ofInt_eq ⟨hfits.1, hfits.2.trans hle⟩]
  simp [PresentationRequest.ofValues?, hid, hhash, ofSeconds_seconds ht, Except.toOption]

end Wire

/-- Instants with equal parts of a second are as their seconds are. -/
theorem compare_of_nanos_eq {t u : Timestamp} (hnanos : t.nanos = u.nanos) :
    (t = u ↔ t.seconds = u.seconds) ∧ (u.isAfter t = true ↔ t.seconds < u.seconds) := by
  constructor
  · constructor
    · rintro rfl
      rfl
    · intro hseconds
      cases t
      cases u
      simp_all only
  · simp [isAfter, hnanos]

/-- What is true of an instant that comes from somewhere. -/
structure Origin.Gives (o : Origin) (t : Timestamp) : Prop where
  inCalendar : t.InCalendar
  part : t.nanos = o.part
  /-- An instant is in whole seconds, unless a text has been stored with a part of a second or a sum goes
  beyond the calendar. -/
  exact : o.IsExact → t.nanos = 0
  stored : ∀ text, o = .stored text →
    (t.nanos = 0 ↔
      (∀ c ∈ partDigits text.toList, c = '0') ∧ digitsValue (secondDigits text.toList) ≠ 60)
  overrun : ∀ o' n, o = .later o' n → o'.overruns n = true → t = latest
  compare : ∀ (o' : Origin) (u : Timestamp), o'.timestamp? = some u → o.part = o'.part →
    (t = u ↔ t.seconds = u.seconds) ∧ (u.isAfter t = true ↔ t.seconds < u.seconds)
  /-- The expiry of a request is written in seconds, and read back as the second that it falls in. -/
  written : ∀ r : PresentationRequest, r.expiresAt = t →
    r.toJson.get? "expires_at" = some (.int t.seconds)
  read : ∀ rest, Json.Delimited rest →
    Json.FieldKind.second.read (Text.utf8 (Json.int t.seconds).compact ++ rest) = .ok (.int t.seconds, rest)
  readBack : ∀ idText schemaText hashText inputs uri id hash, RequestId.parse idText = .ok id →
    ContentDigest.parse hashText = .ok hash →
    PresentationRequest.ofValues? [.string idText, .string schemaText, .string hashText, .object inputs,
      .string uri, .int t.seconds] = some ⟨id, schemaText, hash, inputs, uri, t.truncated, none⟩
  kept : t.truncated = t ↔ o.part = 0

/-- The part of a second of an instant, and with it how instants compare and what is left of them on the
wire, is told by where the instant comes from. -/
theorem given_by_origin {o : Origin} {t : Timestamp} (ht : o.timestamp? = some t) : o.Gives t := by
  obtain ⟨hwithin, hpart⟩ := Origin.of_timestamp? ht
  exact {
    inCalendar := hwithin
    part := hpart
    exact := fun hexact => by rw [hpart, Origin.part_of_isExact hexact]
    stored := fun text hstored => by
      subst hstored
      rw [hpart]
      exact toldNanos_eq_zero
    overrun := fun o' n hlater hover => by
      subst hlater
      exact Origin.eq_latest_of_overruns ht hover
    compare := fun o' u hu hparts => by
      apply compare_of_nanos_eq
      rw [hpart, hparts, (Origin.of_timestamp? hu).2]
    written := fun r hr => by rw [get?_toJson, hr]
    read := fun rest hrest => read_second hwithin hrest
    readBack := fun idText schemaText hashText inputs uri id hash hid hhash =>
      ofValues?_seconds hwithin hid hhash schemaText uri inputs
    kept := by rw [truncated_eq_self, hpart] }

/-- A text that is stored with a part of a second gives an instant with one, and so do later ones. -/
theorem given_by_origin_stored :
    (Origin.later (.stored "1970-01-01T00:00:00.999Z") 1).timestamp? = some ⟨1, 999000000⟩ ∧
      (Origin.later (.stored "1970-01-01T00:00:00.999Z") 1).Gives ⟨1, 999000000⟩ := by
  have hgiven : (Origin.later (.stored "1970-01-01T00:00:00.999Z") 1).timestamp? =
      some ⟨1, 999000000⟩ := by
    rfl
  exact ⟨hgiven, given_by_origin hgiven⟩

end PrivatePresentation.Timestamp
