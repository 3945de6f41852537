import Mathlib
import RegionSalvage.Nbt.Position

/-! # Which documents tell their coordinates

The places of a document are asked one after the other, up to the first that has both coordinates.
`Document.position_ok_iff` says what can go wrong on the way: a place that cannot be asked for
members, or coordinates that stand for no integer.  What is behind the first place with both
coordinates does not matter.
-/

namespace RegionSalvage.Nbt

/-- The coordinates that a place has, if it has both. -/
def Tag.coordinates? : Tag → Option (Tag × Tag)
  | .compound members =>
    match member? members "xPos", member? members "zPos" with
    | some x, some z => some (x, z)
    | _, _ => none
  | _ => none

/-- A number, or a text that holds an integer. -/
def Tag.StandsForInteger : Tag → Prop
  | .integer _ => True
  | .real (.finite ..) => True
  | .text s => ∃ n, parseInteger s = .ok n
  | _ => False

theorem Tag.toInteger_ok_iff (t : Tag) : (∃ n, t.toInteger = .ok n) ↔ t.StandsForInteger := by
  cases t with
  | integer value => exact ⟨fun _ => trivial, fun _ => ⟨value, rfl⟩⟩
  | real x =>
    cases x with
    | finite negative m e => exact ⟨fun _ => trivial, fun _ => ⟨_, rfl⟩⟩
    | nan | infinite => exact ⟨nofun, False.elim⟩
  | text s =>
    unfold toInteger StandsForInteger
    simp only
    cases parseInteger s with
    | ok n => simp
    | error e => cases e <;> simp
  | array | list | compound => exact ⟨nofun, False.elim⟩

namespace Document

/-- A place that is asked has members, and if it has both coordinates, they are integers. -/
def Answers (place : Tag) : Prop :=
  place.hasMembers = true ∧
    ∀ x z, place.coordinates? = some (x, z) → x.StandsForInteger ∧ z.StandsForInteger

/-- Every place that is asked, because none in front of it has both coordinates, answers. -/
def AllAnswer (places : List Tag) : Prop :=
  ∀ before place after, places = before ++ place :: after →
    (∀ earlier ∈ before, earlier.coordinates? = none) → Answers place

/-- A place without members ends the search. -/
theorem firstPosition_of_mute {place : Tag} (h : place.hasMembers = false) (rest : List Tag) :
    firstPosition (place :: rest) = .error .noMembers := by
  cases place with
  | compound | list => exact nomatch h
  | integer | real | text | array => rfl

/-- A place that lacks a coordinate is passed over. -/
theorem firstPosition_of_none {place : Tag} (hmembers : place.hasMembers = true)
    (h : place.coordinates? = none) (rest : List Tag) :
    firstPosition (place :: rest) = firstPosition rest := by
  cases place with
  | integer | real | text | array => exact nomatch hmembers
  | list items => rfl
  | compound members =>
    simp only [Tag.coordinates?] at h
    rw [firstPosition, Tag.get?, Tag.get?]
    cases hx : member? members "xPos" with
    | none => rfl
    | some x =>
      cases hz : member? members "zPos" with
      | none => rfl
      | some z =>
        rw [hx, hz] at h
        exact nomatch h

/-- A place with both coordinates settles the matter. -/
theorem firstPosition_of_some {place x z : Tag} (h : place.coordinates? = some (x, z))
    (rest : List Tag) :
    (∃ position, firstPosition (place :: rest) = .ok position) ↔
      x.StandsForInteger ∧ z.StandsForInteger := by
  cases place with
  | integer | real | text | array | list => exact nomatch h
  | compound members =>
    simp only [Tag.coordinates?] at h
    rw [firstPosition, Tag.get?, Tag.get?, ← x.toInteger_ok_iff, ← z.toInteger_ok_iff]
    cases hx : member? members "xPos" with
    | none =>
      rw [hx] at h
      exact nomatch h
    | some x' =>
      cases hz : member? members "zPos" with
      | none =>
        rw [hx, hz] at h
        exact nomatch h
      | some z' =>
        rw [hx, hz] at h
        cases h
        cases hxn : x.toInteger with
        | error e => simp [hxn, bind, Except.bind]
        | ok n => cases hzn : z.toInteger <;> simp [hxn, hzn, bind, Except.bind, pure, Except.pure]

theorem allAnswer_cons_iff {place : Tag} {rest : List Tag} :
    AllAnswer (place :: rest) ↔
      Answers place ∧ (place.coordinates? = none → AllAnswer rest) := by
  constructor
  · intro h
    refine ⟨h [] place rest rfl nofun, ?_⟩
    intro hnone before other after hsplit hbefore
    apply h (place :: before) other after (by rw [hsplit]; rfl)
    rw [List.forall_mem_cons]
    exact ⟨hnone, hbefore⟩
  · rintro ⟨hplace, hrest⟩ before other after hsplit hbefore
    -- Either the place is the first one, or the first one is among those that lack a coordinate.
    cases before with
    | nil =>
      cases hsplit
      exact hplace
    | cons first before =>
      cases hsplit
      rw [List.forall_mem_cons] at hbefore
      exact hrest hbefore.1 before other after rfl hbefore.2

theorem firstPosition_ok_iff (places : List Tag) :
    (∃ position, firstPosition places = .ok position) ↔ AllAnswer places := by
  induction places with
  | nil =>
    refine ⟨fun _ before place after hsplit => ?_, fun _ => ⟨none, rfl⟩⟩
    exact absurd hsplit.symm (by simp)
  | cons place rest ih =>
    rw [allAnswer_cons_iff, Answers]
    -- A place without members ends the search with an error; so does one whose coordinates are no
    -- integers; a place that lacks one leaves it to the next.
    cases hmembers : place.hasMembers with
    | false =>
      rw [firstPosition_of_mute hmembers]
      simp
    | true =>
      cases hcoordinates : place.coordinates? with
      | none =>
        rw [firstPosition_of_none hmembers hcoordinates, ih]
        simp
      | some pair =>
        obtain ⟨x, z⟩ := pair
        rw [firstPosition_of_some hcoordinates]
        refine ⟨fun h => ⟨⟨rfl, ?_⟩, nofun⟩, fun h => h.1.2 x z rfl⟩
        rintro x z ⟨⟩
        exact h

/-- The coordinates of a document can be told, or it can be told that there are none, just when all
places that are asked answer. -/
theorem position_ok_iff (doc : Document) :
    (∃ position, doc.position = .ok position) ↔ AllAnswer doc.places :=
  firstPosition_ok_iff doc.places

end Document

end RegionSalvage.Nbt
