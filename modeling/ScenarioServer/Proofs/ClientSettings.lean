import ScenarioServer.Proofs.Resolution
import ScenarioServer.Settings

/-!
# Settings as a client sends them

What a client may send is any JSON value. A section is usable exactly if it sets a cap or leaves it
open in one of the ways that `SetsCap` lists; the cap is then the number that was written, and a number
that does not fit 32 bits is no cap at all. A change is about this program exactly if it has the
section's name or the cap's name as a member, and the section's name comes first.

The readers decide by cases on the value, and each of them is described once, by what it answers with:
`cap?_eq_some_iff`, `sectionCap?_eq_some_iff` and `ofSection?_eq_some_iff`. `settings_are_exact`
puts them together.
-/

namespace ScenarioServer

open Json (Node Value)

/-! ## Members of an object -/

/-- The value is an object with a member of the given name. -/
def Json.Value.HasMember (value : Value) (name : String) : Prop :=
  ∃ members, value = .object members ∧ name ∈ members.map Prod.fst

theorem lookup_eq_none_iff_not_mem {members : List (String × Value)} {name : String} :
    members.lookup name = none ↔ name ∉ members.map Prod.fst := by
  rw [List.lookup_eq_none_iff, List.mem_map]
  constructor
  · rintro h ⟨pair, hpair, rfl⟩
    simpa using h pair hpair
  · intro h pair hpair
    rw [bne_iff_ne]
    rintro rfl
    exact h ⟨pair, hpair, rfl⟩

theorem Json.Value.get?_eq_none_iff {value : Value} {name : String} :
    value.get? name = none ↔ ¬value.HasMember name := by
  unfold get? HasMember
  cases value with
  | object members => simpa using lookup_eq_none_iff_not_mem
  | null | bool | number | string | array => simp

theorem Json.Value.HasMember.exists_get? {value : Value} {name : String}
    (h : value.HasMember name) : ∃ part, value.get? name = some part := by
  apply Option.ne_none_iff_exists'.mp
  rw [ne_eq, get?_eq_none_iff]
  exact not_not_intro h

namespace Settings

/-! ## The cap of a section -/

/-- What may stand in the place of the cap: null, which leaves it open, or an unsigned integer of at
most 32 bits. -/
inductive GivesCap : Value → Option Nat → Prop where
  | null : GivesCap .null none
  | number {n : Nat} (hfits : n < UInt32.size) : GivesCap (.number (.natural n)) (some n)

/-- The cap that a usable section sets, if it sets one: the section is an object, in which the cap may
be absent, or an array with the cap as its only item. -/
inductive SetsCap : Value → Option Nat → Prop where
  | absent {members : List (String × Value)}
      (hnone : "maxNumberOfProblems" ∉ members.map Prod.fst) : SetsCap (.object members) none
  | member {members : List (String × Value)} {value : Value} {cap : Option Nat}
      (hvalue : members.lookup "maxNumberOfProblems" = some value) (hcap : GivesCap value cap) :
      SetsCap (.object members) cap
  | item {value : Value} {cap : Option Nat} (hcap : GivesCap value cap) :
      SetsCap (.array [value]) cap

theorem cap?_number (number : Json.Number) :
    cap? (.number number) =
      number.natural?.bind fun n => if n < capBound then some (some n) else none := by
  cases number <;> rfl

theorem cap?_eq_some_iff (value : Value) (cap : Option Nat) :
    cap? value = some cap ↔ GivesCap value cap := by
  constructor
  · intro h
    cases value with
    | null =>
        obtain rfl : none = cap := Option.some.inj h
        exact .null
    | number number =>
        rw [cap?_number] at h
        obtain ⟨n, hn, hcap⟩ := Option.bind_eq_some_iff.mp h
        cases number with
        | natural m =>
            obtain rfl : m = n := Option.some.inj hn
            split at hcap
            · next hfits =>
                obtain rfl : some m = cap := Option.some.inj hcap
                exact .number hfits
            · cases hcap
        | negative | real => cases hn
    | bool | string | array | object => cases h
  · intro h
    cases h with
    | null => rfl
    | number hfits =>
        rw [cap?_number]
        exact if_pos hfits

theorem sectionCap?_object (members : List (String × Value)) :
    sectionCap? (.object members) = (members.lookup capName).elim (some none) cap? := by
  simp only [sectionCap?]
  cases members.lookup capName <;> rfl

theorem sectionCap?_eq_some_iff (value : Value) (cap : Option Nat) :
    sectionCap? value = some cap ↔ SetsCap value cap := by
  constructor
  · intro h
    unfold sectionCap? at h
    split at h
    · next members =>
        split at h
        · next value hvalue => exact .member hvalue ((cap?_eq_some_iff value cap).mp h)
        · next hnone =>
            obtain rfl : none = cap := Option.some.inj h
            exact .absent (lookup_eq_none_iff_not_mem.mp hnone)
    · next value => exact .item ((cap?_eq_some_iff value cap).mp h)
    · cases h
  · intro h
    cases h with
    | absent hnone =>
        rw [sectionCap?_object, capName, lookup_eq_none_iff_not_mem.mpr hnone, Option.elim_none]
    | member hvalue hcap =>
        rw [sectionCap?_object, capName, hvalue, Option.elim_some]
        exact (cap?_eq_some_iff _ _).mpr hcap
    | item hcap => exact (cap?_eq_some_iff _ _).mpr hcap

theorem ofSection?_eq_some_iff (value : Value) (fallback settings : Settings) :
    ofSection? value fallback = some settings ↔ ∃ cap, SetsCap value cap ∧
      settings = ⟨cap.getD fallback.maxNumberOfProblems⟩ := by
  rw [ofSection?, Option.map_eq_some_iff]
  constructor
  · rintro ⟨cap, hcap, rfl⟩
    exact ⟨cap, (sectionCap?_eq_some_iff value cap).mp hcap, rfl⟩
  · rintro ⟨cap, hsets, rfl⟩
    exact ⟨cap, (sectionCap?_eq_some_iff value cap).mpr hsets, rfl⟩

theorem ofSection?_eq_none_iff (value : Value) (fallback : Settings) :
    ofSection? value fallback = none ↔ ¬∃ cap, SetsCap value cap := by
  rw [Option.eq_none_iff_forall_ne_some, not_exists]
  constructor
  · intro h cap hsets
    exact h _ ((ofSection?_eq_some_iff value fallback _).mpr ⟨cap, hsets, rfl⟩)
  · intro h settings hsome
    obtain ⟨cap, hsets, -⟩ := (ofSection?_eq_some_iff value fallback settings).mp hsome
    exact h cap hsets

/-- A cap is an integer that the client wrote with digits only. -/
theorem givesCap_some_iff {depth : Nat} {node : Node} {value : Value}
    (h : Value.ofNode? depth node = some value) (n : Nat) :
    GivesCap value (some n) ↔ node.IsUnsigned n ∧ n < UInt32.size := by
  constructor
  · intro hgives
    cases hgives with
    | number hfits => exact ⟨((Value.eq_natural_iff h n).mp rfl).1, hfits⟩
  · rintro ⟨hwritten, hfits⟩
    have hword : n ≤ Json.maxWord := Nat.le_trans (Nat.le_of_lt hfits) (by decide)
    obtain rfl := (Value.eq_natural_iff h n).mpr ⟨hwritten, hword⟩
    exact .number hfits

/-! ## Changes that a client announces -/

theorem ofChange?_of_section {value part : Value} (h : value.get? sectionName = some part)
    (fallback : Settings) :
    ofChange? value fallback = some ((ofSection? part fallback).getD fallback) := by
  simp only [ofChange?, h]

theorem ofChange?_of_bare {value : Value} (hsection : ¬value.HasMember sectionName)
    (hcap : value.HasMember capName) (fallback : Settings) :
    ofChange? value fallback = some ((ofSection? value fallback).getD fallback) := by
  obtain ⟨part, hpart⟩ := hcap.exists_get?
  simp only [ofChange?, Value.get?_eq_none_iff.mpr hsection, hpart, Option.isSome_some, if_true]

theorem ofChange?_eq_none_iff (value : Value) (fallback : Settings) :
    ofChange? value fallback = none ↔
      ¬value.HasMember sectionName ∧ ¬value.HasMember capName := by
  by_cases hsection : value.HasMember sectionName
  · obtain ⟨part, hpart⟩ := hsection.exists_get?
    simp [ofChange?_of_section hpart, hsection]
  · by_cases hcap : value.HasMember capName
    · simp [ofChange?_of_bare hsection hcap, hcap]
    · have hnone := Value.get?_eq_none_iff.mpr hcap
      simp [ofChange?, Value.get?_eq_none_iff.mpr hsection, hnone, hsection, hcap]

end Settings

open Settings

/-- A section gives settings exactly if it sets a cap or leaves it open, and then with that cap or the
fallback's; the cap is the integer that was written, below the bound of 32 bits. A change that a client
announces concerns this program exactly if it is an object with the section or the cap among its
members; the section counts if there is one, whatever it holds, and an unusable one gives the fallback.
So a section without a section inside can be sent bare or under its name. -/
theorem settings_are_exact (value : Value) (fallback : Settings) :
    (∀ settings, ofSection? value fallback = some settings ↔ ∃ cap, SetsCap value cap ∧
      settings = ⟨cap.getD fallback.maxNumberOfProblems⟩) ∧
    (ofSection? value fallback = none ↔ ¬∃ cap, SetsCap value cap) ∧
    (∀ depth node, Value.ofNode? depth node = some value →
      ∀ n, GivesCap value (some n) ↔ node.IsUnsigned n ∧ n < UInt32.size) ∧
    (ofChange? value fallback = none ↔ (∀ members, value ≠ .object members) ∨
      ¬value.HasMember "tacl" ∧ ¬value.HasMember "maxNumberOfProblems") ∧
    (value.HasMember "tacl" → ∃ part, value.get? "tacl" = some part ∧
      ofChange? value fallback = some ((ofSection? part fallback).getD fallback)) ∧
    (value.HasMember "maxNumberOfProblems" → ¬value.HasMember "tacl" →
      ofChange? value fallback = some ((ofSection? value fallback).getD fallback) ∧
      ofChange? (.object [("tacl", value)]) fallback = ofChange? value fallback) := by
  refine ⟨ofSection?_eq_some_iff value fallback, ofSection?_eq_none_iff value fallback,
    fun depth node => givesCap_some_iff, ?_, ?_, ?_⟩
  · rw [ofChange?_eq_none_iff]
    constructor
    · exact .inr
    · rintro (hshape | hnone)
      · constructor
        · rintro ⟨members, hvalue, -⟩
          exact hshape members hvalue
        · rintro ⟨members, hvalue, -⟩
          exact hshape members hvalue
      · exact hnone
  · intro hsection
    obtain ⟨part, hpart⟩ := hsection.exists_get?
    exact ⟨part, hpart, ofChange?_of_section hpart fallback⟩
  · intro hcap hsection
    have hbare := ofChange?_of_bare hsection hcap fallback
    exact ⟨hbare, (ofChange?_of_section rfl fallback).trans hbare.symm⟩

/-- A section with the largest cap, beside a member that is not known. -/
def widestSection : Value :=
  .object [("trace", .bool true), ("maxNumberOfProblems", .number (.natural 4294967295))]

/-- Zero with a sign. -/
def negativeZero : Json.NumberLiteral := { negative := true, whole := [0] }

/-- The largest cap is taken over as it is, bare or under the section's name; one more is no cap, and
neither is zero with a sign; a section that is null resets the settings, whatever stands beside it. -/
theorem settings_are_exact_at_bound :
    widestSection.HasMember "maxNumberOfProblems" ∧ ¬widestSection.HasMember "tacl" ∧
    ofChange? widestSection ⟨7⟩ = some ⟨4294967295⟩ ∧
    ofChange? (.object [("tacl", widestSection)]) ⟨7⟩ = some ⟨4294967295⟩ ∧
    ofSection? (.array [.number (.natural 4294967296)]) ⟨7⟩ = none ∧
    Value.ofNode? 0 (.number negativeZero) = some (.number (.real negativeZero)) ∧
    ¬GivesCap (.number (.real negativeZero)) (some 0) ∧
    (Value.object [("tacl", .null), ("maxNumberOfProblems", .number (.natural 5))]).HasMember "tacl" ∧
    ofChange? (.object [("tacl", .null), ("maxNumberOfProblems", .number (.natural 5))]) ⟨7⟩ =
      some ⟨7⟩ := by
  have hcap : widestSection.HasMember "maxNumberOfProblems" := ⟨_, rfl, by simp⟩
  have hsection : ¬widestSection.HasMember "tacl" := by
    rintro ⟨members, hmembers, hmem⟩
    obtain rfl := Value.object.inj hmembers
    simp at hmem
  obtain ⟨hsome, -, -, -, -, hbare⟩ := settings_are_exact widestSection ⟨7⟩
  obtain ⟨hchange, hsame⟩ := hbare hcap hsection
  have hsettings : ofSection? widestSection ⟨7⟩ = some ⟨4294967295⟩ :=
    (hsome _).mpr ⟨some 4294967295, .member rfl (.number (by decide)), rfl⟩
  rw [hsettings, Option.getD_some] at hchange
  have hlarge : ¬∃ cap, SetsCap (.array [.number (.natural 4294967296)]) cap := by
    rintro ⟨cap, hsets⟩
    cases hsets with
    | item hgives =>
        cases hgives with
        | number hfits => exact absurd hfits (by decide)
  obtain ⟨-, hnone, -⟩ := settings_are_exact (.array [.number (.natural 4294967296)]) ⟨7⟩
  have hread : Value.ofNode? 0 (.number negativeZero) = some (.number (.real negativeZero)) := rfl
  obtain ⟨-, -, hwritten, -⟩ := settings_are_exact (.number (.real negativeZero)) ⟨7⟩
  have hsigned : ¬GivesCap (.number (.real negativeZero)) (some 0) := by
    rw [hwritten 0 (.number negativeZero) hread]
    rintro ⟨⟨digits, hdigits, -⟩, -⟩
    cases hdigits
  have hnull : (Value.object [("tacl", .null),
      ("maxNumberOfProblems", .number (.natural 5))]).HasMember "tacl" := ⟨_, rfl, by simp⟩
  obtain ⟨-, -, -, -, hreset, -⟩ := settings_are_exact (.object [("tacl", .null),
    ("maxNumberOfProblems", .number (.natural 5))]) ⟨7⟩
  obtain ⟨part, hpart, hfallback⟩ := hreset hnull
  obtain rfl : Value.null = part := Option.some.inj hpart
  exact ⟨hcap, hsection, hchange, hsame.trans hchange, hnone.mpr hlarge, hread, hsigned, hnull,
    hfallback⟩

end ScenarioServer
