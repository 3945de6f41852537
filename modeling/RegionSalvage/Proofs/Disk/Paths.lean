import Mathlib
import RegionSalvage.Disk.FileTree

/-! # Paths into a directory

A file that is named relative to a directory stands in that directory: where the path of the
directory leads, the joined path leads one name further (`FileTree.locate_joinPath`).  Where a path
leads depends on the directories of the tree alone, so it stays the same as long as they do
(`FileTree.locate_of_keeps`).  `FileTree.Leads` lists the ways to follow a path; the lemmas about
places go through its cases.
-/

namespace RegionSalvage

namespace FileTree

/-- A name that a file can have in its directory. -/
structure IsName (name : String) : Prop where
  ne_empty : name ≠ ""
  no_slash : '/' ∉ name.toList
  ne_here : name ≠ "."
  ne_up : name ≠ ".."

variable {directory name : String}

/-! ## Joined paths -/

theorem endsWith_slash_iff {path : String} :
    path.endsWith "/" = true ↔ ∃ before, before ++ ['/'] = path.toList := by
  rw [← String.endsWith_toSlice, String.Slice.endsWith_string_iff, String.copy_toSlice]
  rfl

theorem startsWith_slash_iff {path : String} :
    path.startsWith "/" = true ↔ ∃ rest, '/' :: rest = path.toList :=
  String.startsWith_string_iff

theorem IsName.not_startsWith (h : IsName name) : name.startsWith "/" = false := by
  refine Bool.eq_false_iff.2 fun hslash => ?_
  obtain ⟨rest, hrest⟩ := startsWith_slash_iff.1 hslash
  exact h.no_slash (hrest ▸ List.mem_cons_self)

/-- A path that leads on from a directory, in characters: there is a slash in front of the name. -/
theorem exists_toList_joinPath (hname : IsName name) (hdirectory : directory ≠ "") :
    ∃ before, (joinPath directory name).toList = before ++ '/' :: name.toList ∧
      (directory.toList = before ++ ['/'] ∨ directory.toList = before) := by
  have hempty : directory.isEmpty = false := by simpa using hdirectory
  rw [joinPath, hname.not_startsWith, hempty]
  simp only [Bool.false_eq_true, if_false, Bool.false_or]
  split
  · next hslash =>
    obtain ⟨before, hbefore⟩ := endsWith_slash_iff.1 hslash
    refine ⟨before, ?_, .inl hbefore.symm⟩
    rw [String.toList_append, ← hbefore, List.append_assoc]
    rfl
  · refine ⟨directory.toList, ?_, .inr rfl⟩
    rw [String.toList_append, String.toList_append, List.append_assoc]
    rfl

theorem splitOn_append_slash (before after : List Char) :
    (before ++ '/' :: after).splitOn '/' = before.splitOn '/' ++ after.splitOn '/' := by
  rw [List.splitOn_eq_splitOnP]
  exact List.splitOnP_append_cons before after rfl

theorem namesOf_joinPath (hname : IsName name) (hdirectory : directory ≠ "") :
    namesOf (joinPath directory name) = namesOf directory ++ [name] := by
  obtain ⟨before, hjoined, hbefore⟩ := exists_toList_joinPath hname hdirectory
  have hsingle : name.toList.splitOn '/' = [name.toList] := by
    rw [List.splitOn_eq_splitOnP]
    refine List.splitOnP_eq_singleton fun c hc => ?_
    exact beq_false_of_ne fun heq => hname.no_slash (heq ▸ hc)
  have hdirectories : namesOf directory =
      ((before.splitOn '/').map String.ofList).filter (· ≠ "") := by
    rcases hbefore with hslash | hplain
    · -- Behind the last slash there is only the empty name.
      rw [namesOf, hslash, splitOn_append_slash]
      simp
    · rw [namesOf, hplain]
  rw [namesOf, hjoined, splitOn_append_slash, hsingle, hdirectories]
  simp [hname.ne_empty]

theorem startsWith_joinPath (hname : IsName name) (hdirectory : directory ≠ "") :
    (joinPath directory name).startsWith "/" = directory.startsWith "/" := by
  obtain ⟨before, hjoined, hbefore⟩ := exists_toList_joinPath hname hdirectory
  have hchars : directory.toList ≠ [] := fun hnil => hdirectory (String.toList_eq_nil_iff.1 hnil)
  rw [Bool.eq_iff_iff, startsWith_slash_iff, startsWith_slash_iff, hjoined]
  cases before with
  | nil =>
    rcases hbefore with hslash | hplain
    · rw [hslash]
      exact iff_of_true ⟨_, rfl⟩ ⟨_, rfl⟩
    · exact absurd hplain hchars
  | cons c before => rcases hbefore with h | h <;> simp [h]

theorem endsWith_joinPath (hname : IsName name) (hdirectory : directory ≠ "") :
    (joinPath directory name).endsWith "/" = false := by
  obtain ⟨before, hjoined, -⟩ := exists_toList_joinPath hname hdirectory
  refine Bool.eq_false_iff.2 fun hslash => ?_
  obtain ⟨most, hmost⟩ := endsWith_slash_iff.1 hslash
  have hne : name.toList ≠ [] := fun hnil => hname.ne_empty (String.toList_eq_nil_iff.1 hnil)
  rw [hjoined] at hmost
  -- The last character of the path is that of the name.
  have hlast := congrArg List.getLast? hmost
  rw [List.getLast?_concat, List.getLast?_append_cons, List.getLast?_cons_of_ne_nil hne] at hlast
  exact hname.no_slash (List.mem_of_getLast? hlast.symm)

/-- A longer name makes a longer path. -/
theorem joinPath_append {suffix : String} (directory : String) (hname : IsName name)
    (hlonger : IsName (name ++ suffix)) :
    joinPath directory name ++ suffix = joinPath directory (name ++ suffix) := by
  rw [joinPath, joinPath, hname.not_startsWith, hlonger.not_startsWith]
  simp only [Bool.false_eq_true, if_false]
  split <;> simp only [String.append_assoc]

/-! ## Places -/

variable {t t' : FileTree} {path : String}

/-- The directories of one tree are directories of the other. -/
def Keeps (t t' : FileTree) : Prop :=
  ∀ place, t.node? place = some .directory → t'.node? place = some .directory

theorem enter_eq_ok {place place' : Location} (h : t.enter place name = .ok place') :
    name = "." ∧ place' = place ∨ name = ".." ∧ place' = place.up ∨
      name ≠ "." ∧ name ≠ ".." ∧ name.utf8ByteSize ≤ maxNameLength ∧
        t.node? (place ++ [name]) = some .directory ∧ place' = place ++ [name] := by
  unfold enter at h
  split at h
  · next hhere => exact .inl ⟨hhere, (Except.ok.inj h).symm⟩
  · next hhere =>
    split at h
    · next hup => exact .inr (.inl ⟨hup, (Except.ok.inj h).symm⟩)
    · next hup =>
      split at h
      · exact nomatch h
      · next hlong =>
        split at h
        · exact nomatch h
        · exact nomatch h
        · next hnode =>
          exact .inr (.inr ⟨hhere, hup, Nat.le_of_not_lt hlong, hnode, (Except.ok.inj h).symm⟩)

theorem enter_of_keeps (hkeeps : Keeps t t') {place place' : Location}
    (h : t.enter place name = .ok place') : t'.enter place name = .ok place' := by
  obtain ⟨rfl, rfl⟩ | ⟨rfl, rfl⟩ | ⟨hhere, hup, hshort, hnode, rfl⟩ := enter_eq_ok h
  · rfl
  · rfl
  · rw [enter, if_neg hhere, if_neg hup, if_neg (Nat.not_lt.2 hshort), hkeeps _ hnode]

theorem foldlM_enter_of_keeps (hkeeps : Keeps t t') {names : List String} {place place' : Location}
    (h : names.foldlM t.enter place = .ok place') : names.foldlM t'.enter place = .ok place' := by
  induction names generalizing place with
  | nil => exact h
  | cons name names ih =>
    rw [List.foldlM_cons] at h ⊢
    cases hfirst : t.enter place name with
    | error e =>
      rw [hfirst] at h
      exact nomatch h
    | ok next =>
      rw [hfirst] at h
      rw [enter_of_keeps hkeeps hfirst]
      exact ih h

/-- Where the way of a path begins. -/
def originOf (path : String) : Location := if path.startsWith "/" then ["/"] else []

/-- Whether a path is one at all. -/
structure IsPath (path : String) : Prop where
  no_nul : path.contains '\x00' = false
  ne_empty : path.isEmpty = false
  size_le : path.utf8ByteSize ≤ maxPathLength

theorem contains_nul_iff {path : String} :
    path.contains '\x00' = true ↔ '\x00' ∈ path.toList := by
  simp

theorem IsPath.append {suffix : String} (h : IsPath directory) (hnul : '\x00' ∉ suffix.toList)
    (hsize : directory.utf8ByteSize + suffix.utf8ByteSize ≤ maxPathLength) :
    IsPath (directory ++ suffix) := by
  refine ⟨Bool.eq_false_iff.2 fun hmem => ?_, Bool.eq_false_iff.2 fun hempty => ?_, ?_⟩
  · rw [contains_nul_iff, String.toList_append, List.mem_append] at hmem
    exact hmem.elim (fun hold => Bool.eq_false_iff.1 h.no_nul (contains_nul_iff.2 hold)) hnul
  · rw [String.isEmpty_iff, String.append_eq_empty_iff] at hempty
    exact Bool.eq_false_iff.1 h.ne_empty (String.isEmpty_iff.2 hempty.1)
  · rw [String.utf8ByteSize_append]
    exact hsize

/-- Where the names of a path lead; only the last one need not be there. -/
def follow (t : FileTree) (path : String) : Except FileError Spot :=
  match (namesOf path).getLast? with
  | none => .ok ⟨originOf path, true⟩
  | some name =>
    ((namesOf path).dropLast.foldlM t.enter (originOf path)).bind fun parent =>
      if name = "." ∨ name = ".." then (t.enter parent name).map (⟨·, true⟩)
      else .ok ⟨parent ++ [name], path.endsWith "/"⟩

theorem locate_of_isPath (h : IsPath path) (t : FileTree) : t.locate path = t.follow path := by
  rw [locate, h.no_nul, h.ne_empty]
  simp only [Bool.false_eq_true, if_false, if_neg (Nat.not_lt.2 h.size_le)]
  rw [follow]
  cases (namesOf path).getLast? with
  | none => rfl
  | some name =>
    change (namesOf path).dropLast.foldlM t.enter (originOf path) >>= _ = _
    cases (namesOf path).dropLast.foldlM t.enter (originOf path) with
    | error e => rfl
    | ok parent =>
      change (if _ then _ else _ : Except FileError Spot) = if _ then _ else _
      split
      · cases t.enter parent name <;> rfl
      · rfl

theorem isPath_of_locate {spot : Spot} (h : t.locate path = .ok spot) : IsPath path := by
  rw [locate] at h
  cases hnul : path.contains '\x00' with
  | true =>
    rw [hnul] at h
    exact nomatch h
  | false =>
    cases hempty : path.isEmpty with
    | true =>
      rw [hnul, hempty] at h
      exact nomatch h
    | false =>
      refine ⟨hnul, hempty, Nat.le_of_not_lt fun hlong => ?_⟩
      rw [hnul, hempty] at h
      simp only [Bool.false_eq_true, if_false, if_pos hlong] at h
      exact nomatch h

/-- The ways to follow a path, each with the place that it leads to. -/
inductive Leads (t : FileTree) (path : String) : Spot → Prop
  | origin (hnames : namesOf path = []) : Leads t path ⟨originOf path, true⟩
  | dots {front : List String} {name : String} {parent place : Location}
      (hnames : namesOf path = front ++ [name])
      (hfront : front.foldlM t.enter (originOf path) = .ok parent)
      (hdots : name = "." ∨ name = "..") (henter : t.enter parent name = .ok place) :
      Leads t path ⟨place, true⟩
  | name {front : List String} {name : String} {parent : Location}
      (hnames : namesOf path = front ++ [name])
      (hfront : front.foldlM t.enter (originOf path) = .ok parent)
      (hdots : ¬ (name = "." ∨ name = "..")) :
      Leads t path ⟨parent ++ [name], path.endsWith "/"⟩

theorem leads_of_follow {spot : Spot} (h : t.follow path = .ok spot) : t.Leads path spot := by
  rw [follow] at h
  cases hlast : (namesOf path).getLast? with
  | none =>
    rw [hlast] at h
    cases h
    exact .origin (List.getLast?_eq_none_iff.1 hlast)
  | some name =>
    obtain ⟨front, hnames⟩ := List.getLast?_eq_some_iff.1 hlast
    rw [hlast, hnames, List.dropLast_concat] at h
    cases hfront : front.foldlM t.enter (originOf path) with
    | error e =>
      rw [hfront] at h
      exact nomatch h
    | ok parent =>
      simp only [hfront, Except.bind] at h
      -- The last name is `..`, which leads somewhere already, or one that need not be there.
      split at h
      · next hdots =>
        cases henter : t.enter parent name with
        | error e =>
          rw [henter] at h
          exact nomatch h
        | ok place =>
          rw [henter] at h
          cases h
          exact .dots hnames hfront hdots henter
      · next hdots =>
        cases h
        exact .name hnames hfront hdots

theorem follow_of_leads {spot : Spot} (h : t.Leads path spot) : t.follow path = .ok spot := by
  rw [follow]
  cases h with
  | origin hnames => rw [hnames, List.getLast?_nil]
  | dots hnames hfront hdots henter =>
    simp only [hnames, List.getLast?_concat, List.dropLast_concat, hfront, Except.bind,
      if_pos hdots, henter]
    rfl
  | name hnames hfront hdots =>
    simp only [hnames, List.getLast?_concat, List.dropLast_concat, hfront, Except.bind,
      if_neg hdots]

theorem Leads.of_keeps (hkeeps : Keeps t t') {spot : Spot} (h : t.Leads path spot) :
    t'.Leads path spot := by
  cases h with
  | origin hnames => exact .origin hnames
  | dots hnames hfront hdots henter =>
    exact .dots hnames (foldlM_enter_of_keeps hkeeps hfront) hdots (enter_of_keeps hkeeps henter)
  | name hnames hfront hdots =>
    exact .name hnames (foldlM_enter_of_keeps hkeeps hfront) hdots

/-- Where a path leads, it leads as long as there are the same directories. -/
theorem locate_of_keeps (hkeeps : Keeps t t') {spot : Spot} (h : t.locate path = .ok spot) :
    t'.locate path = .ok spot := by
  have hpath := isPath_of_locate h
  rw [locate_of_isPath hpath] at h ⊢
  exact follow_of_leads ((leads_of_follow h).of_keeps hkeeps)

theorem foldlM_enter_concat {front : List String} {origin parent : Location}
    (hfront : front.foldlM t.enter origin = .ok parent) (name : String) :
    (front ++ [name]).foldlM t.enter origin = t.enter parent name := by
  rw [List.foldlM_append, hfront]
  change [name].foldlM t.enter parent = _
  rw [List.foldlM_cons]
  simp only [List.foldlM_nil, bind_pure]

/-- The way into a directory ends where the path of the directory leads. -/
theorem Leads.eq_of_way {spot : Spot} {place : Location} (h : t.Leads path spot)
    (hway : (namesOf path).foldlM t.enter (originOf path) = .ok place) : place = spot.place := by
  cases h with
  | origin hnames =>
    rw [hnames] at hway
    exact (Except.ok.inj hway).symm
  | dots hnames hfront hdots henter =>
    rw [hnames, foldlM_enter_concat hfront, henter] at hway
    exact (Except.ok.inj hway).symm
  | name hnames hfront hdots =>
    rw [hnames, foldlM_enter_concat hfront] at hway
    obtain ⟨hhere, -⟩ | ⟨hup, -⟩ | ⟨-, -, -, -, rfl⟩ := enter_eq_ok hway
    · exact absurd (.inl hhere) hdots
    · exact absurd (.inr hup) hdots
    · rfl

/-- Where the path of a directory leads, there is a way into it. -/
theorem Leads.way {spot : Spot} (h : t.Leads path spot)
    (hnode : t.node? spot.place = some .directory)
    (hshort : (spot.place.getLastD "").utf8ByteSize ≤ maxNameLength) :
    (namesOf path).foldlM t.enter (originOf path) = .ok spot.place := by
  cases h with
  | origin hnames =>
    rw [hnames]
    rfl
  | dots hnames hfront hdots henter => rw [hnames, foldlM_enter_concat hfront, henter]
  | name hnames hfront hdots =>
    rw [hnames, foldlM_enter_concat hfront]
    rw [not_or] at hdots
    rw [List.getLastD_concat] at hshort
    rw [enter, if_neg hdots.1, if_neg hdots.2, if_neg (Nat.not_lt.2 hshort), hnode]

theorem originOf_joinPath (hname : IsName name) (hdirectory : directory ≠ "") :
    originOf (joinPath directory name) = originOf directory := by
  rw [originOf, startsWith_joinPath hname hdirectory, originOf]

theorem IsName.not_dots (h : IsName name) : ¬ (name = "." ∨ name = "..") :=
  not_or.2 ⟨h.ne_here, h.ne_up⟩

theorem ne_empty_of_locate {spot : Spot} (h : t.locate path = .ok spot) : path ≠ "" := by
  rintro rfl
  exact absurd (isPath_of_locate h).ne_empty (by decide)

/-- A file that is named relative to a directory stands in that directory. -/
theorem locate_joinPath (hname : IsName name) {spot spot' : Spot}
    (hdirectory : t.locate directory = .ok spot)
    (h : t.locate (joinPath directory name) = .ok spot') :
    spot' = ⟨spot.place ++ [name], false⟩ := by
  have hne := ne_empty_of_locate hdirectory
  have hnames := namesOf_joinPath hname hne
  rw [locate_of_isPath (isPath_of_locate hdirectory)] at hdirectory
  rw [locate_of_isPath (isPath_of_locate h)] at h
  cases leads_of_follow h with
  | origin hnone => exact absurd (hnames.symm.trans hnone) (List.concat_ne_nil _ _)
  | dots hsplit hfront hdots henter =>
    obtain ⟨-, rfl⟩ := List.append_singleton_inj.1 (hnames.symm.trans hsplit)
    exact absurd hdots hname.not_dots
  | name hsplit hfront hdots =>
    obtain ⟨rfl, rfl⟩ := List.append_singleton_inj.1 (hnames.symm.trans hsplit)
    rw [originOf_joinPath hname hne] at hfront
    rw [(leads_of_follow hdirectory).eq_of_way hfront, endsWith_joinPath hname hne]

/-- Into a directory that is there, every path with one more name leads. -/
theorem locate_joinPath_of_directory (hname : IsName name) {spot : Spot}
    (hdirectory : t.locate directory = .ok spot) (hnode : t.node? spot.place = some .directory)
    (hshort : (spot.place.getLastD "").utf8ByteSize ≤ maxNameLength)
    (hpath : IsPath (joinPath directory name)) :
    t.locate (joinPath directory name) = .ok ⟨spot.place ++ [name], false⟩ := by
  have hne := ne_empty_of_locate hdirectory
  rw [locate_of_isPath (isPath_of_locate hdirectory)] at hdirectory
  have hway := (leads_of_follow hdirectory).way hnode hshort
  rw [← originOf_joinPath hname hne] at hway
  rw [locate_of_isPath hpath, ← endsWith_joinPath hname hne]
  exact follow_of_leads (.name (namesOf_joinPath hname hne) hway hname.not_dots)

end FileTree

end RegionSalvage
