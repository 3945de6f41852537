import RegionSalvage.Proofs.Disk.Paths

/-! # What stands in a directory

Writing and renaming a file changes what stands at the places of that file, and nothing else; in
particular every directory stays where it is.  So the path of a directory leads to the same place
before and after, and a file written below it stands where its name says
(`FileTree.write_joinPath`, `FileTree.rename_joinPath`).  Where a name is not too long, nothing but
a directory in its place keeps a file from being written (`FileTree.write_of_namesFile`).
-/

namespace RegionSalvage

namespace FileTree

variable {t t' : FileTree} {place other : Location} {directory name target : String}
  {node : FileNode} {content : ByteArray}

/-! ## Entries -/

theorem lookup_cons_eq_if (first other : Location) (node : FileNode)
    (entries : List (Location × FileNode)) :
    ((first, node) :: entries).lookup other =
      if other = first then some node else entries.lookup other := by
  rw [List.lookup_cons]
  by_cases h : other = first
  · rw [if_pos h, h, beq_self_eq_true]
  · rw [if_neg h, beq_false_of_ne h]

/-- A replacement changes what stands at one place, if there is anything. -/
theorem lookup_replace (entries : List (Location × FileNode)) (place other : Location)
    (node : FileNode) :
    (entries.map fun entry => if entry.1 = place then (place, node) else entry).lookup other =
      if other = place then (entries.lookup place).map fun _ => node else entries.lookup other := by
  induction entries with
  | nil => simp
  | cons entry entries ih =>
    obtain ⟨first, old⟩ := entry
    rw [List.map_cons, lookup_cons_eq_if, lookup_cons_eq_if]
    by_cases hfirst : first = place
    · rw [if_pos hfirst, lookup_cons_eq_if, if_pos hfirst.symm, ih, hfirst]
      split <;> rfl
    · rw [if_neg hfirst, lookup_cons_eq_if, if_neg (Ne.symm hfirst), ih]
      by_cases hother : other = place
      · rw [if_pos hother, if_pos hother, hother, if_neg (Ne.symm hfirst)]
      · rw [if_neg hother, if_neg hother]

theorem lookup_put (t : FileTree) (place other : Location) (node : FileNode) :
    (t.put place node).entries.lookup other =
      if other = place then some node else t.entries.lookup other := by
  rw [put]
  split
  · next hthere =>
    obtain ⟨old, hold⟩ := Option.isSome_iff_exists.1 hthere
    rw [lookup_replace, hold]
    rfl
  · next habsent =>
    have hnone : t.entries.lookup place = none := Option.not_isSome_iff_eq_none.1 habsent
    simp only [List.lookup_append, lookup_cons_eq_if, List.lookup_nil]
    by_cases hother : other = place
    · rw [if_pos hother, if_pos hother, hother, hnone]
      rfl
    · rw [if_neg hother, if_neg hother, Option.or_none]

theorem lookup_remove (t : FileTree) (place other : Location) :
    (t.remove place).entries.lookup other =
      if other = place then none else t.entries.lookup other := by
  change (t.entries.filter fun entry => entry.1 != place).lookup other = _
  induction t.entries with
  | nil => exact (ite_self _).symm
  | cons entry entries ih =>
    obtain ⟨first, old⟩ := entry
    rw [lookup_cons_eq_if]
    by_cases hfirst : first = place
    · rw [List.filter_cons_of_neg (by simpa using hfirst), ih, hfirst]
      split <;> rfl
    · rw [List.filter_cons_of_pos (by simpa using hfirst), lookup_cons_eq_if, ih]
      by_cases hother : other = place
      · rw [if_pos hother, if_pos hother, hother, if_neg (Ne.symm hfirst)]
      · rw [if_neg hother, if_neg hother]

/-! ## Places -/

/-- A place that a name leads to is none of those that are always there. -/
theorem IsName.not_always (h : IsName name) (place : Location) (rest : List String) :
    ¬ (place ++ name :: rest = ["/"] ∨ Location.isAbove (place ++ name :: rest)) := by
  rintro (hroot | habove)
  · have hslash : name ∈ ["/"] := hroot ▸ List.mem_append_right _ List.mem_cons_self
    exact h.no_slash (List.mem_singleton.1 hslash ▸ List.mem_cons_self)
  · have hup := List.all_eq_true.1 habove name (List.mem_append_right _ List.mem_cons_self)
    exact h.ne_up (beq_iff_eq.1 hup)

theorem node?_eq_lookup (h : ¬ (place = ["/"] ∨ place.isAbove)) (t : FileTree) :
    t.node? place = t.entries.lookup place :=
  if_neg h

theorem node?_put (h : IsName name) (t : FileTree) (place : Location) (node : FileNode)
    (other : Location) :
    (t.put (place ++ [name]) node).node? other =
      if other = place ++ [name] then some node else t.node? other := by
  by_cases halways : other = ["/"] ∨ other.isAbove
  · have hne : other ≠ place ++ [name] := fun heq => h.not_always place [] (heq ▸ halways)
    rw [node?, node?, if_pos halways, if_pos halways, if_neg hne]
  · rw [node?_eq_lookup halways, node?_eq_lookup halways, lookup_put]

theorem node?_remove (h : IsName name) (t : FileTree) (place other : Location) :
    (t.remove (place ++ [name])).node? other =
      if other = place ++ [name] then none else t.node? other := by
  by_cases halways : other = ["/"] ∨ other.isAbove
  · have hne : other ≠ place ++ [name] := fun heq => h.not_always place [] (heq ▸ halways)
    rw [node?, node?, if_pos halways, if_pos halways, if_neg hne]
  · rw [node?_eq_lookup halways, node?_eq_lookup halways, lookup_remove]

/-! ## Writing and renaming -/

theorem eq_ok_of_report {α : Type} {path : String} {attempt : Except FileError α} {a : α}
    (h : report path attempt = .ok a) : attempt = .ok a := by
  cases attempt with
  | error e => exact nomatch h
  | ok b => exact congrArg Except.ok (Except.ok.inj h)

theorem nodeAt_eq_ok {spot : Spot} {found : Option FileNode} (h : t.nodeAt spot = .ok found) :
    (spot.place.getLastD "").utf8ByteSize ≤ maxNameLength ∧ t.node? spot.place = found := by
  unfold nodeAt at h
  split at h
  · exact nomatch h
  · next hshort => exact ⟨Nat.le_of_not_lt hshort, Except.ok.inj h⟩

/-- The path names a file at this place, or one that could be there. -/
structure NamesFile (t : FileTree) (path : String) (place : Location) : Prop where
  located : t.locate path = .ok ⟨place, false⟩
  short : (place.getLastD "").utf8ByteSize ≤ maxNameLength

theorem NamesFile.of_keeps {path : String} (h : t.NamesFile path place) (hkeeps : Keeps t t') :
    t'.NamesFile path place :=
  ⟨locate_of_keeps hkeeps h.located, h.short⟩

theorem NamesFile.read {path : String} (h : t.NamesFile path place)
    (hnode : t.node? place = some (.file content)) : t.read path = .ok content := by
  have hfound : t.nodeAt ⟨place, false⟩ = .ok (some (.file content)) := by
    rw [nodeAt, if_neg (Nat.not_lt.2 h.short), hnode]
  simp only [FileTree.read, h.located, hfound, bind, Except.bind]
  rfl

theorem NamesFile.not_pathExists {path : String} (h : t.NamesFile path place)
    (hnode : t.node? place = none) : t.pathExists path = false := by
  simp only [pathExists, h.located, hnode]

theorem write_eq_ok {path : String} (h : t.write path content = .ok t') :
    ∃ place, t.NamesFile path place ∧ t.node? place ≠ some .directory ∧
      t' = t.put place (.file content) := by
  have hattempt := eq_ok_of_report h
  cases hspot : t.locate path with
  | error e =>
    rw [hspot] at hattempt
    exact nomatch hattempt
  | ok spot =>
    obtain ⟨place, wantsDirectory⟩ := spot
    rw [hspot] at hattempt
    -- A path that wants a directory takes no file.
    cases wantsDirectory with
    | true => exact nomatch hattempt
    | false =>
      change (t.nodeAt ⟨place, false⟩).bind _ = .ok t' at hattempt
      cases hnode : t.nodeAt ⟨place, false⟩ with
      | error e =>
        rw [hnode] at hattempt
        exact nomatch hattempt
      | ok found =>
        rw [hnode] at hattempt
        obtain ⟨hshort, hfound⟩ := nodeAt_eq_ok hnode
        refine ⟨place, ⟨hspot, hshort⟩, ?_, ?_⟩
        · rintro hdirectory
          rw [hfound.symm.trans hdirectory] at hattempt
          exact nomatch hattempt
        · match found, hattempt with
          | none, hput | some (.file _), hput => exact (Except.ok.inj hput).symm

theorem rename_eq_ok {source : String} (h : t.rename source target = .ok t') :
    ∃ old new node, t.locate source = .ok old ∧ t.locate target = .ok new ∧
      t.node? old.place = some node ∧
      (node = .directory ∨ t.node? new.place ≠ some .directory) ∧
      t' = (t.remove old.place).put new.place node := by
  simp only [rename] at h
  cases hold : t.locate source with
  | error e =>
    rw [hold] at h
    exact nomatch h
  | ok old =>
    cases hnew : t.locate target with
    | error e =>
      rw [hold, hnew] at h
      exact nomatch h
    | ok new =>
      cases hoccupant : t.nodeAt old with
      | error e =>
        simp only [hold, hnew, hoccupant, bind, Except.bind] at h
        exact nomatch h
      | ok occupant =>
        cases hreplaced : t.nodeAt new with
        | error e =>
          simp only [hold, hnew, hoccupant, hreplaced, bind, Except.bind] at h
          exact nomatch h
        | ok replaced =>
          simp only [hold, hnew, hoccupant, hreplaced, bind, Except.bind] at h
          have hfrom := (nodeAt_eq_ok hoccupant).2
          have hto := (nodeAt_eq_ok hreplaced).2
          -- A file does not take the place of a directory; a directory takes any place.
          match occupant, replaced, h with
          | none, _, h => exact nomatch h
          | some (.file _), some .directory, h => exact nomatch h
          | some .directory, _, h =>
            exact ⟨old, new, _, rfl, rfl, hfrom, .inl rfl, (Except.ok.inj h).symm⟩
          | some (.file _), none, h | some (.file _), some (.file _), h =>
            refine ⟨old, new, _, rfl, rfl, hfrom, .inr ?_, (Except.ok.inj h).symm⟩
            rw [hto]
            exact nofun

/-! ## Files in a directory -/

/-- A change to a place without a directory keeps the directories. -/
theorem keeps_of_node? (hplace : t.node? place ≠ some .directory)
    (h : ∀ other, other ≠ place → t.node? other = some .directory →
      t'.node? other = some .directory) : Keeps t t' :=
  fun other hother => h other (fun heq => hplace (heq ▸ hother)) hother

theorem write_of_namesFile {path : String} (h : t.NamesFile path place)
    (hnode : t.node? place ≠ some .directory) (content : ByteArray) :
    t.write path content = .ok (t.put place (.file content)) := by
  have hfound : t.nodeAt ⟨place, false⟩ = .ok (t.node? place) := if_neg (Nat.not_lt.2 h.short)
  simp only [write, h.located, hfound, bind, Except.bind]
  match hthere : t.node? place with
  | none | some (.file _) => rfl
  | some .directory => exact absurd hthere hnode

theorem rename_of_namesFile {source target : String} {old new : Location}
    (hsource : t.NamesFile source old) (htarget : t.NamesFile target new)
    (hold : t.node? old = some (.file content)) (hnew : t.node? new ≠ some .directory) :
    t.rename source target = .ok ((t.remove old).put new (.file content)) := by
  have hfound : t.nodeAt ⟨old, false⟩ = .ok (some (.file content)) := by
    rw [nodeAt, if_neg (Nat.not_lt.2 hsource.short), hold]
  have hreplaced : t.nodeAt ⟨new, false⟩ = .ok (t.node? new) :=
    if_neg (Nat.not_lt.2 htarget.short)
  simp only [rename, hsource.located, htarget.located, hfound, hreplaced, bind, Except.bind]
  match hthere : t.node? new with
  | none | some (.file _) => rfl
  | some .directory => exact absurd hthere hnew

/-- A file that is written below a directory stands there under its name. -/
theorem write_joinPath (hname : IsName name) {spot : Spot}
    (hdirectory : t.locate directory = .ok spot)
    (h : t.write (joinPath directory name) content = .ok t') :
    t.NamesFile (joinPath directory name) (spot.place ++ [name]) ∧ Keeps t t' ∧
      ∀ other, t'.node? other =
        if other = spot.place ++ [name] then some (.file content) else t.node? other := by
  obtain ⟨place, hpath, hfree, rfl⟩ := write_eq_ok h
  obtain ⟨rfl, -⟩ := Spot.mk.inj (locate_joinPath hname hdirectory hpath.located)
  have hnode := node?_put hname t spot.place (.file content)
  refine ⟨hpath, keeps_of_node? hfree fun other hother hold => ?_, hnode⟩
  rw [hnode, if_neg hother, hold]

/-- A file that is renamed within a directory stands there under its new name alone. -/
theorem rename_joinPath {name' : String} (hname : IsName name) (hname' : IsName name')
    {spot : Spot} (hdirectory : t.locate directory = .ok spot)
    (hfile : t.node? (spot.place ++ [name]) = some (.file content))
    (h : t.rename (joinPath directory name) (joinPath directory name') = .ok t') :
    Keeps t t' ∧ ∀ other, t'.node? other =
      if other = spot.place ++ [name'] then some (.file content)
      else if other = spot.place ++ [name] then none else t.node? other := by
  obtain ⟨old, new, node, hold, hnew, hnode, hfree, rfl⟩ := rename_eq_ok h
  obtain rfl := locate_joinPath hname hdirectory hold
  obtain rfl := locate_joinPath hname' hdirectory hnew
  obtain rfl : node = .file content := Option.some.inj (hnode.symm.trans hfile)
  have hafter (other : Location) :
      ((t.remove (spot.place ++ [name])).put (spot.place ++ [name']) (.file content)).node? other =
        if other = spot.place ++ [name'] then some (.file content)
        else if other = spot.place ++ [name] then none else t.node? other := by
    rw [node?_put hname', node?_remove hname]
  refine ⟨keeps_of_node? (hfree.resolve_left nofun) fun other hother hdir => ?_, hafter⟩
  have hne : other ≠ spot.place ++ [name] := fun heq => by
    rw [heq, hfile] at hdir
    exact nomatch hdir
  rw [hafter, if_neg hother, if_neg hne, hdir]

/-- The path of a file with this name in the directory is no longer than paths may be. -/
structure Fits (directory name : String) : Prop where
  path : IsPath (joinPath directory name)
  short : name.utf8ByteSize ≤ maxNameLength

/-- A name fits if neither it nor its path is too long. -/
theorem IsPath.fits (h : IsPath directory) (hname : IsName name) (hnul : '\x00' ∉ name.toList)
    (hsize : directory.utf8ByteSize + 1 + name.utf8ByteSize ≤ maxPathLength)
    (hshort : name.utf8ByteSize ≤ maxNameLength) : Fits directory name := by
  refine ⟨?_, hshort⟩
  have hslash : "/".utf8ByteSize = 1 := by decide
  rw [joinPath, hname.not_startsWith, h.ne_empty]
  simp only [Bool.false_eq_true, if_false, Bool.false_or]
  split
  · exact h.append hnul (by omega)
  · have hfront : IsPath (directory ++ "/") := h.append (by decide) (by omega)
    exact hfront.append hnul (by rw [String.utf8ByteSize_append]; omega)

theorem namesFile_joinPath (hname : IsName name) (hfits : Fits directory name) {spot : Spot}
    (hdirectory : t.locate directory = .ok spot) (hnode : t.node? spot.place = some .directory)
    (hshort : (spot.place.getLastD "").utf8ByteSize ≤ maxNameLength) :
    t.NamesFile (joinPath directory name) (spot.place ++ [name]) := by
  refine ⟨locate_joinPath_of_directory hname hdirectory hnode hshort hfits.path, ?_⟩
  rw [List.getLastD_concat]
  exact hfits.short

/-- A directory that no other one leads to is made at once. -/
theorem makeDirectories_of_splitPath {path tail : String} (hsplit : splitPath path = ("", tail))
    (htail : tail.isEmpty = false) (depth : Nat) (t : FileTree) :
    makeDirectories (depth + 1) t path = makeDirectories.leaf t path := by
  unfold makeDirectories
  simp [hsplit, htail]

/-- The path leads to a directory at this place, with nothing in it. -/
structure IsEmptyDirectory (t : FileTree) (path : String) (place : Location) : Prop where
  located : ∃ wantsDirectory, t.locate path = .ok ⟨place, wantsDirectory⟩
  directory : t.node? place = some .directory
  empty : ∀ name rest, IsName name → t.node? (place ++ name :: rest) = none

end FileTree

end RegionSalvage
