import PrivatePresentation.Proofs.Schema.Acceptance
import PrivatePresentation.Proofs.Time.Calendar

/-!
What an accepted schema is like.  Every name that a constraint uses is declared with a type that the
constraint can be laid on, and its constants are of 64 bits.
-/

namespace PrivatePresentation

/-- The constant is of the sort of the field. -/
def Literal.Suits (f : FieldDecl) : Literal → Prop
  | .text _ => f.type.isHashed = true
  | .integer n => f.type.isHashed = false ∧ Json.FitsSigned n

/-- The right-hand side is of the sort of the field. -/
def Operand.Suits (fields : List FieldDecl) (f : FieldDecl) : Operand → Prop
  | .field name => Schema.Declares fields name fun g => g.type.isHashed = f.type.isHashed
  | .literal c => c.Suits f

/-- The demand makes sense of the declared fields. -/
def Demand.WellFormed (fields : List FieldDecl) : Demand → Prop
  | .range name min max =>
    Schema.Declares fields name (fun f => f.type.isHashed = false) ∧ min ≤ max ∧
      Json.FitsSigned min ∧ Json.FitsSigned max
  | .comparison left c right =>
    Schema.Declares fields left fun f =>
      (f.type.isHashed = true → c.isEquality = true) ∧ right.Suits fields f
  | .age birth current minAge _ =>
    (∀ name ∈ birth.names, Schema.Declares fields name fun f => f.type.isNumeric = true) ∧
      (∀ name ∈ current.names, Schema.Declares fields name fun f =>
        f.type.isNumeric = true ∧ f.isPublic = true) ∧
      0 ≤ minAge ∧ minAge ≤ Schema.maxMinAge

/-- No two fields have the same name, and every constraint makes sense of the fields. -/
structure Schema.WellFormed (s : Schema) : Prop where
  nodup : (s.fields.map (·.name)).Nodup
  demands : ∀ c ∈ s.constraints, c.demand.WellFormed s.fields

theorem FieldType.isHashed_eq_false {t : FieldType} (ht : t ≠ .string) : t.isHashed = false :=
  eq_false_of_ne_true (mt isHashed_iff.1 ht)

theorem FieldType.isHashed_congr {t u : FieldType} (h : t = .string ↔ u = .string) :
    t.isHashed = u.isHashed := by
  rw [Bool.eq_iff_iff, isHashed_iff, isHashed_iff]
  exact h

theorem FieldType.isHashed_of_isNumeric {t : FieldType} (ht : t.isNumeric = true) :
    t.isHashed = false := by
  cases t with
  | string => exact nomatch ht
  | _ => rfl

theorem Decimal.integerWithin?_within {low high n : Int} {s : String}
    (hn : integerWithin? low high s = some n) : low ≤ n ∧ n ≤ high := by
  unfold integerWithin? at hn
  split at hn
  · split at hn
    · rename_i hwithin
      obtain rfl := Option.some.inj hn
      exact hwithin
    · exact nomatch hn
  · exact nomatch hn

namespace Timestamp

/-- The seconds of the calendar are of 64 bits. -/
theorem InCalendar.fitsSigned {t : Timestamp} (ht : t.InCalendar) : Json.FitsSigned t.seconds := by
  simp only [InCalendar, minSeconds, maxSeconds] at ht
  simp only [Json.FitsSigned, Json.minSigned, Json.maxSigned]
  omega

theorem fitsSigned_of_parseDate {s : String} {t : Timestamp} (ht : parseDate s = .ok t) :
    Json.FitsSigned t.seconds :=
  (parseDate_within ht).fitsSigned

end Timestamp

theorem Literal.Written.suits {f : FieldDecl} {type : FieldType} {v : Json} {c : Literal}
    (h : c.Written type v) (hf : f.type = type) : c.Suits f := by
  have hnumber {n : Int} (htype : type ≠ .string) (hn : Json.FitsSigned n) :
      (Literal.integer n).Suits f := ⟨FieldType.isHashed_eq_false (hf ▸ htype), hn⟩
  cases h with
  | text s => exact FieldType.isHashed_iff.2 hf
  | truth b =>
      refine hnumber nofun ?_
      cases b with
      | true => exact ⟨by decide, by decide⟩
      | false => exact ⟨by decide, by decide⟩
  | date ht => exact hnumber nofun (Timestamp.fitsSigned_of_parseDate ht)
  | number htype hn => exact hnumber htype hn
  | decimal htype hdate hn => exact hnumber htype (Decimal.integerWithin?_within hn)

/-- Whatever keeps to the rules makes sense of the fields. -/
theorem ConstraintDraft.Demands.wellFormed {fields : List FieldDecl} {d : ConstraintDraft}
    {demand : Demand} (h : d.Demands fields demand) : demand.WellFormed fields := by
  cases h with
  | range _ _ _ hname _ hmin hmax hle =>
      obtain ⟨f, hf, hstring⟩ := hname
      exact ⟨⟨f, hf, FieldType.isHashed_eq_false hstring⟩, hle, hmin, hmax⟩
  | literal _ _ _ _ hname =>
      obtain ⟨f, hf, hequality, hconstant⟩ := hname
      exact ⟨f, hf, fun hhashed => hequality (FieldType.isHashed_iff.1 hhashed), hconstant.suits rfl⟩
  | comparison _ _ _ hleft =>
      obtain ⟨f, hf, hequality, g, hg, hsame⟩ := hleft
      exact ⟨f, hf, fun hhashed => hequality (FieldType.isHashed_iff.1 hhashed), g, hg,
        (FieldType.isHashed_congr hsame).symm⟩
  | age _ _ _ hbirth hcurrent _ _ hmin hmax => exact ⟨hbirth, hcurrent, hmin, hmax⟩

/-- Whatever document a schema is read from, it is well formed. -/
theorem Schema.parseBytes_wellFormed {document : Bytes} {s : Schema}
    (hs : parseBytes document = .ok s) : s.WellFormed := by
  obtain ⟨v, u, -, -, hs⟩ := of_parseBytes hs
  obtain ⟨-, hlawful, hlists, -⟩ := ofCanonical_eq_ok.1 hs
  constructor
  · rw [hlists.fields, SchemaDraft.decls, List.map_map]
    exact hlawful.distinct
  · intro c hc
    obtain ⟨d, -, hyields⟩ := Outcome.exists_of_mem_forall₂ hlists.constraints c hc
    rw [hlists.fields]
    exact hyields.demands.wellFormed

end PrivatePresentation
