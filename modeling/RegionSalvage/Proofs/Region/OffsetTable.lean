import RegionSalvage.Proofs.Region.Density

/-! # What makes an offset table

The test of an offset table goes through claims that ascend by offset and keeps the number of sectors
handed out so far.  Neither the order of the claims nor the running number shows in what it asks for:
in front of every offset there have to be as many sectors as the chunks at smaller offsets take
(`OffsetEntry.fit_iff`), and of several slots with one offset the last one says how many these are
(`lengthAt`).

* `OffsetEntry.insertClaim_of_mem`, `OffsetEntry.insertClaim_perm` — what entering a slot does.
* `claimLength_claims` — the claims of a table have its lengths.
* `isOffsetTable_iff_rules` — the test asks for the rules, and for nothing else.
-/

namespace RegionSalvage

namespace OffsetEntry

variable {e : OffsetEntry} {claims slots : List OffsetEntry} {offset : Nat}

/-! ## Claims that ascend -/

/-- Claims that ascend by offset. -/
def Ascending (claims : List OffsetEntry) : Prop := claims.Pairwise (·.offset < ·.offset)

theorem insertClaim_of_mem (hascending : Ascending claims)
    (h : e.offset ∈ claims.map OffsetEntry.offset) : insertClaim e claims = claims := by
  induction claims with
  | nil => exact nomatch h
  | cons f rest ih =>
    obtain ⟨hfirst, hrest⟩ := List.pairwise_cons.1 hascending
    rw [List.map_cons, List.mem_cons] at h
    unfold insertClaim
    rcases h with hsame | hlater
    · rw [if_neg (by omega), if_pos hsame]
    · obtain ⟨g, hg, hoffset⟩ := List.mem_map.1 hlater
      have hlt := hfirst g hg
      rw [if_neg (by omega), if_neg (by omega), ih hrest hlater]

theorem insertClaim_perm (h : e.offset ∉ claims.map OffsetEntry.offset) :
    (insertClaim e claims).Perm (e :: claims) := by
  induction claims with
  | nil => exact .refl _
  | cons f rest ih =>
    rw [List.map_cons, List.mem_cons, not_or] at h
    unfold insertClaim
    split
    · exact .refl _
    · rw [if_neg h.1]
      exact ((ih h.2).cons f).trans (.swap e f rest)

theorem Ascending.insertClaim (h : Ascending claims) (e : OffsetEntry) :
    Ascending (insertClaim e claims) := by
  induction claims with
  | nil => exact List.pairwise_singleton _ _
  | cons f rest ih =>
    obtain ⟨hfirst, hrest⟩ := List.pairwise_cons.1 h
    unfold OffsetEntry.insertClaim
    split
    · next hlt =>
      refine List.pairwise_cons.2 ⟨fun g hg => ?_, h⟩
      rcases List.mem_cons.1 hg with rfl | hlater
      · exact hlt
      · exact Nat.lt_trans hlt (hfirst g hlater)
    · split
      · exact h
      · next hle hne =>
        -- The claim goes further back, unless its offset is there already.
        by_cases hmem : e.offset ∈ rest.map OffsetEntry.offset
        · rw [insertClaim_of_mem hrest hmem]
          exact h
        · refine List.pairwise_cons.2 ⟨fun g hg => ?_, ih hrest⟩
          rcases List.mem_cons.1 ((insertClaim_perm hmem).mem_iff.1 hg) with rfl | hlater
          · omega
          · exact hfirst g hlater

theorem ascending_claims (slots : List OffsetEntry) : Ascending (OffsetEntry.claims slots) := by
  induction slots with
  | nil => exact .nil
  | cons e slots ih => exact ih.insertClaim e

theorem mem_offsets_claims :
    offset ∈ (OffsetEntry.claims slots).map OffsetEntry.offset ↔
      offset ∈ slots.map OffsetEntry.offset := by
  induction slots with
  | nil => exact Iff.rfl
  | cons e slots ih =>
    change offset ∈ (insertClaim e (OffsetEntry.claims slots)).map _ ↔ _
    rw [List.map_cons, List.mem_cons, ← ih]
    by_cases hmem : e.offset ∈ (OffsetEntry.claims slots).map OffsetEntry.offset
    · rw [insertClaim_of_mem (ascending_claims slots) hmem, iff_or_self]
      exact fun heq => heq ▸ hmem
    · rw [((insertClaim_perm hmem).map _).mem_iff, List.map_cons, List.mem_cons]

theorem length_claims_le (slots : List OffsetEntry) :
    (OffsetEntry.claims slots).length ≤ slots.length := by
  induction slots with
  | nil => exact Nat.le_refl _
  | cons e slots ih =>
    change (insertClaim e (OffsetEntry.claims slots)).length ≤ slots.length + 1
    by_cases hmem : e.offset ∈ (OffsetEntry.claims slots).map OffsetEntry.offset
    · rw [insertClaim_of_mem (ascending_claims slots) hmem]
      omega
    · rw [(insertClaim_perm hmem).length_eq, List.length_cons]
      omega

/-- There are as many claims as slots just when no two slots share an offset. -/
theorem length_claims_eq_iff :
    (OffsetEntry.claims slots).length = slots.length ↔ (slots.map OffsetEntry.offset).Nodup := by
  induction slots with
  | nil => exact iff_of_true rfl .nil
  | cons e slots ih =>
    change (insertClaim e (OffsetEntry.claims slots)).length = slots.length + 1 ↔ _
    rw [List.map_cons, List.nodup_cons, ← ih, ← mem_offsets_claims]
    by_cases hmem : e.offset ∈ (OffsetEntry.claims slots).map OffsetEntry.offset
    · have hle := length_claims_le slots
      rw [insertClaim_of_mem (ascending_claims slots) hmem]
      exact iff_of_false (by omega) fun h => h.1 hmem
    · rw [(insertClaim_perm hmem).length_eq, List.length_cons, Nat.add_right_cancel_iff,
        and_iff_right hmem]

/-! ## Room -/

/-- The length of the claim at an offset, zero where there is none. -/
def claimLength (claims : List OffsetEntry) (offset : Nat) : Nat :=
  ((claims.filter (·.offset = offset)).map OffsetEntry.length).sum

theorem claimLength_cons (f : OffsetEntry) (rest : List OffsetEntry) (offset : Nat) :
    claimLength (f :: rest) offset =
      (if f.offset = offset then f.length else 0) + claimLength rest offset := by
  unfold claimLength
  by_cases hsame : f.offset = offset
  · rw [List.filter_cons_of_pos (by simpa using hsame), if_pos hsame]
    exact List.sum_cons
  · rw [List.filter_cons_of_neg (by simpa using hsame), if_neg hsame, Nat.zero_add]

theorem claimLength_perm {claims claims' : List OffsetEntry} (h : claims.Perm claims')
    (offset : Nat) : claimLength claims offset = claimLength claims' offset :=
  ((h.filter _).map _).sum_eq

theorem claimLength_of_not_mem (h : offset ∉ claims.map OffsetEntry.offset) :
    claimLength claims offset = 0 := by
  have hnone : claims.filter (·.offset = offset) = [] := by
    apply List.filter_eq_nil_iff.2
    intro f hf hsame
    exact h (List.mem_map.2 ⟨f, hf, of_decide_eq_true hsame⟩)
  rw [claimLength, hnone]
  rfl

/-- Claims fit just when in front of each of them there is room for all claims at smaller offsets. -/
theorem fit_iff {used : Nat} (h : Ascending claims) :
    fit used claims = true ↔
      ∀ e ∈ claims, used + ∑ offset ∈ Finset.range e.offset, claimLength claims offset ≤
        e.offset := by
  induction claims generalizing used with
  | nil => exact iff_of_true rfl nofun
  | cons f rest ih =>
    obtain ⟨hfirst, hrest⟩ := List.pairwise_cons.1 h
    -- Nothing of the rest lies in front of the first claim, and the first claim in front of all.
    have hsum (n : Nat) : ∑ offset ∈ Finset.range n, claimLength (f :: rest) offset =
        (if f.offset < n then f.length else 0) +
          ∑ offset ∈ Finset.range n, claimLength rest offset := by
      simp only [claimLength_cons, Finset.sum_add_distrib, Finset.sum_ite_eq, Finset.mem_range]
    have hbefore : ∑ offset ∈ Finset.range f.offset, claimLength rest offset = 0 := by
      apply Finset.sum_eq_zero
      intro offset hoffset
      apply claimLength_of_not_mem
      intro hmem
      obtain ⟨g, hg, rfl⟩ := List.mem_map.1 hmem
      exact absurd (hfirst g hg) (Nat.not_lt_of_gt (Finset.mem_range.1 hoffset))
    have hlater : ∀ e ∈ rest, (used + ∑ offset ∈ Finset.range e.offset,
        claimLength (f :: rest) offset ≤ e.offset ↔
          used + f.length + ∑ offset ∈ Finset.range e.offset, claimLength rest offset ≤
            e.offset) := by
      intro e he
      rw [hsum, if_pos (hfirst e he), Nat.add_assoc]
    rw [List.forall_mem_cons, forall₂_congr hlater, ← ih hrest, hsum, hbefore,
      if_neg (Nat.lt_irrefl _), Nat.add_zero, fit, Bool.and_eq_true,
      decide_eq_true_iff]

end OffsetEntry

/-! ## The lengths of a table -/

/-- The length that a table gives to the chunk at an offset: that of the last populated slot with
this offset, zero where there is none. -/
def lengthAt (fields : List Nat) (offset : Nat) : Nat :=
  ((fields.filter fun field => field % 256 ≠ 0 ∧ field / 256 = offset).getLast?.map (· % 256)).getD 0

theorem lengthAt_eq_zero_iff {fields : List Nat} {offset : Nat} :
    lengthAt fields offset = 0 ↔ ∀ field ∈ fields, field % 256 ≠ 0 → field / 256 ≠ offset := by
  unfold lengthAt
  cases hlast :
      (fields.filter fun field => field % 256 ≠ 0 ∧ field / 256 = offset).getLast? with
  | none =>
    have hnone := List.filter_eq_nil_iff.1 (List.getLast?_eq_none_iff.1 hlast)
    refine iff_of_true rfl fun field hfield hpopulated hsame => hnone field hfield ?_
    exact decide_eq_true ⟨hpopulated, hsame⟩
  | some field =>
    obtain ⟨hfield, hslot⟩ := List.mem_filter.1 (List.mem_of_getLast? hlast)
    obtain ⟨hpopulated, hsame⟩ := of_decide_eq_true hslot
    exact iff_of_false hpopulated fun h => h field hfield hpopulated hsame

/-- A slot in front of others counts only if none of them has its offset. -/
theorem lengthAt_cons (field : Nat) (fields : List Nat) (offset : Nat) :
    lengthAt (field :: fields) offset =
      if lengthAt fields offset = 0 ∧ field / 256 = offset then field % 256
      else lengthAt fields offset := by
  by_cases hslot : field % 256 ≠ 0 ∧ field / 256 = offset
  · have hfilter : (field :: fields).filter (fun field => field % 256 ≠ 0 ∧ field / 256 = offset) =
        field :: fields.filter fun field => field % 256 ≠ 0 ∧ field / 256 = offset :=
      List.filter_cons_of_pos (decide_eq_true hslot)
    unfold lengthAt
    rw [hfilter, List.getLast?_cons]
    -- Later slots take precedence, so this one counts only if none of them has the offset.
    cases hlast :
        (fields.filter fun field => field % 256 ≠ 0 ∧ field / 256 = offset).getLast? with
    | none => exact (if_pos ⟨rfl, hslot.2⟩).symm
    | some last =>
      obtain ⟨-, hpopulated⟩ := List.mem_filter.1 (List.mem_of_getLast? hlast)
      exact (if_neg fun h => (of_decide_eq_true hpopulated).1 h.1).symm
  · have hfilter : (field :: fields).filter (fun field => field % 256 ≠ 0 ∧ field / 256 = offset) =
        fields.filter fun field => field % 256 ≠ 0 ∧ field / 256 = offset :=
      List.filter_cons_of_neg fun h => hslot (of_decide_eq_true h)
    have hsame : lengthAt (field :: fields) offset = lengthAt fields offset := by
      unfold lengthAt
      rw [hfilter]
    rw [hsame]
    split
    · next h => omega
    · rfl

/-- Where no two populated slots share an offset, every one of them counts. -/
theorem lengthAt_of_mem {fields : List Nat} {field : Nat}
    (hdistinct : ((fields.filter fun field => field % 256 ≠ 0).map (· / 256)).Nodup)
    (hfield : field ∈ fields) (hpopulated : field % 256 ≠ 0) :
    lengthAt fields (field / 256) = field % 256 := by
  have hmem {other : Nat} (hother : other ∈ fields) (hpopulated : other % 256 ≠ 0) :
      other ∈ fields.filter fun field => field % 256 ≠ 0 :=
    List.mem_filter.2 ⟨hother, decide_eq_true hpopulated⟩
  unfold lengthAt
  cases hlast :
      (fields.filter fun other => other % 256 ≠ 0 ∧ other / 256 = field / 256).getLast? with
  | none =>
    have hnone := List.filter_eq_nil_iff.1 (List.getLast?_eq_none_iff.1 hlast)
    exact absurd (decide_eq_true ⟨hpopulated, rfl⟩) (hnone field hfield)
  | some last =>
    obtain ⟨hlast, hslot⟩ := List.mem_filter.1 (List.mem_of_getLast? hlast)
    obtain ⟨hpopulated', hsame⟩ := of_decide_eq_true hslot
    obtain rfl : last = field :=
      List.inj_on_of_nodup_map hdistinct (hmem hlast hpopulated') (hmem hfield hpopulated) hsame
    rfl

theorem lengthAt_perm {fields fields' : List Nat} (h : fields.Perm fields')
    (hdistinct : ((fields.filter fun field => field % 256 ≠ 0).map (· / 256)).Nodup)
    (offset : Nat) : lengthAt fields offset = lengthAt fields' offset := by
  by_cases hzero : lengthAt fields offset = 0
  · have hnone := lengthAt_eq_zero_iff.1 hzero
    rw [hzero, lengthAt_eq_zero_iff.2 fun field hfield => hnone field (h.mem_iff.2 hfield)]
  · obtain ⟨field, hfield, hpopulated, rfl⟩ : ∃ field ∈ fields, field % 256 ≠ 0 ∧
        field / 256 = offset := by
      simpa using mt lengthAt_eq_zero_iff.2 hzero
    have hdistinct' := ((h.filter fun field => field % 256 ≠ 0).map (· / 256)).nodup_iff.1 hdistinct
    rw [lengthAt_of_mem hdistinct hfield hpopulated,
      lengthAt_of_mem hdistinct' (h.mem_iff.1 hfield) hpopulated]

/-! ## The rules -/

theorem OffsetEntry.length_ofField (field : Nat) :
    (OffsetEntry.ofField field).length = field % 256 := by
  simp only [ofField]
  omega

theorem OffsetEntry.isPopulated_ofField (field : Nat) :
    (OffsetEntry.ofField field).isPopulated = true ↔ field % 256 ≠ 0 := by
  rw [isPopulated, length_ofField, bne_iff_ne]

/-- The populated slots of a table. -/
def populatedEntries (fields : List Nat) : List OffsetEntry :=
  (fields.map fun (field : Nat) => OffsetEntry.ofField field).filter OffsetEntry.isPopulated

theorem populatedEntries_eq (fields : List Nat) :
    populatedEntries fields = (fields.filter fun field => field % 256 ≠ 0).map
      fun (field : Nat) => OffsetEntry.ofField field := by
  rw [populatedEntries, List.filter_map]
  congr 1
  apply List.filter_congr
  intro field _
  rw [Function.comp_apply, Bool.eq_iff_iff, OffsetEntry.isPopulated_ofField, decide_eq_true_iff]

theorem map_offset_populatedEntries {fields : List Nat} (h : ∀ field ∈ fields, field < 0x100000000) :
    (populatedEntries fields).map OffsetEntry.offset =
      (fields.filter fun field => field % 256 ≠ 0).map (· / 256) := by
  rw [populatedEntries_eq, List.map_map]
  apply List.map_congr_left
  intro field hfield
  exact OffsetEntry.offset_ofField (h field (List.mem_of_mem_filter hfield))

/-- There is a length at an offset just when a populated slot has it. -/
theorem mem_offsets_populatedEntries {fields : List Nat} {offset : Nat}
    (h : ∀ field ∈ fields, field < 0x100000000) :
    offset ∈ (populatedEntries fields).map OffsetEntry.offset ↔ lengthAt fields offset ≠ 0 := by
  rw [map_offset_populatedEntries h, Ne, lengthAt_eq_zero_iff]
  simp [and_assoc]

theorem populatedEntries_cons (field : Nat) (fields : List Nat) :
    populatedEntries (field :: fields) =
      if field % 256 = 0 then populatedEntries fields
      else .ofField field :: populatedEntries fields := by
  have hpopulated := OffsetEntry.isPopulated_ofField field
  unfold populatedEntries
  rw [List.map_cons]
  split
  · next hzero => exact List.filter_cons_of_neg fun h => hpopulated.1 h hzero
  · next hnonzero => exact List.filter_cons_of_pos (hpopulated.2 hnonzero)

/-- The claims of a table have its lengths. -/
theorem claimLength_claims {fields : List Nat} (h : ∀ field ∈ fields, field < 0x100000000)
    (offset : Nat) :
    OffsetEntry.claimLength (OffsetEntry.claims (populatedEntries fields)) offset =
      lengthAt fields offset := by
  induction fields with
  | nil => rfl
  | cons field fields ih =>
    obtain ⟨hfield, hfields⟩ := List.forall_mem_cons.1 h
    have ih := ih hfields
    rw [populatedEntries_cons, lengthAt_cons]
    split
    · next hzero => rw [ih, hzero, ite_eq_right_iff.2 fun hnone => hnone.1.symm]
    · change OffsetEntry.claimLength
        (OffsetEntry.insertClaim (.ofField field) (OffsetEntry.claims (populatedEntries fields)))
        offset = _
      have hclaimed : field / 256 ∈ (populatedEntries fields).map OffsetEntry.offset ↔
          lengthAt fields (field / 256) ≠ 0 := mem_offsets_populatedEntries hfields
      rw [← OffsetEntry.mem_offsets_claims, ← OffsetEntry.offset_ofField hfield] at hclaimed
      by_cases hmem : (OffsetEntry.ofField field).offset ∈
          (OffsetEntry.claims (populatedEntries fields)).map OffsetEntry.offset
      · -- A later slot has this offset, so the new one does not count.
        have hlength := hclaimed.1 hmem
        rw [OffsetEntry.offset_ofField hfield] at hlength
        rw [OffsetEntry.insertClaim_of_mem (OffsetEntry.ascending_claims _) hmem, ih, if_neg]
        rintro ⟨hnone, rfl⟩
        exact hlength hnone
      · have hnone : lengthAt fields (field / 256) = 0 := by
          rw [← OffsetEntry.offset_ofField hfield]
          exact not_ne_iff.1 (mt hclaimed.2 hmem)
        rw [OffsetEntry.claimLength_perm (OffsetEntry.insertClaim_perm hmem),
          OffsetEntry.claimLength_cons, ih, OffsetEntry.offset_ofField hfield,
          OffsetEntry.length_ofField]
        split
        · next hsame => rw [← hsame, hnone, if_pos ⟨rfl, rfl⟩, Nat.add_zero]
        · next hother => rw [if_neg fun h => hother h.2, Nat.zero_add]

/-- What an offset table is, given its fields in the order of the slots. -/
structure OffsetTableRules (fields : List Nat) (rejectDuplicates : Bool) : Prop where
  /-- No offset is too large, that of an unused slot neither. -/
  offset_le : ∀ field ∈ fields, field / 256 ≤ 0xFFFF
  populated : 4 ≤ fields.countP fun field => field % 256 ≠ 0
  distinct : rejectDuplicates = true →
    ((fields.filter fun field => field % 256 ≠ 0).map (· / 256)).Nodup
  /-- In front of every offset in use there is room for the two tables and for the chunks at smaller
  offsets. -/
  room : ∀ offset, lengthAt fields offset ≠ 0 →
    2 + ∑ smaller ∈ Finset.range offset, lengthAt fields smaller ≤ offset

/-- Where no offset may be shared, the order of the slots does not matter. -/
theorem OffsetTableRules.perm {fields fields' : List Nat} (h : OffsetTableRules fields true)
    (hperm : fields.Perm fields') : OffsetTableRules fields' true := by
  have hdistinct := h.distinct rfl
  have hlength := lengthAt_perm hperm hdistinct
  refine ⟨fun field hfield => h.offset_le field (hperm.mem_iff.2 hfield), ?_, fun _ => ?_, ?_⟩
  · rw [← hperm.countP_eq]
    exact h.populated
  · exact ((hperm.filter _).map _).nodup_iff.1 hdistinct
  · simp only [← hlength]
    exact h.room

/-- The claims fit just when there is room in front of every offset. -/
theorem fit_claims_iff {fields : List Nat} (h : ∀ field ∈ fields, field < 0x100000000) (used : Nat) :
    OffsetEntry.fit used (OffsetEntry.claims (populatedEntries fields)) = true ↔
      ∀ offset, lengthAt fields offset ≠ 0 →
        used + ∑ smaller ∈ Finset.range offset, lengthAt fields smaller ≤ offset := by
  have hclaimed (offset : Nat) : lengthAt fields offset ≠ 0 ↔
      offset ∈ (OffsetEntry.claims (populatedEntries fields)).map OffsetEntry.offset := by
    rw [OffsetEntry.mem_offsets_claims, mem_offsets_populatedEntries h]
  rw [OffsetEntry.fit_iff (OffsetEntry.ascending_claims _)]
  simp only [hclaimed, List.forall_mem_map, claimLength_claims h]

theorem isOffsetTable_iff_rules (b : ByteArray) (rejectDuplicates : Bool) :
    isOffsetTable b rejectDuplicates = true ↔ OffsetTableRules (tableFields b) rejectDuplicates := by
  have hfields : ∀ field ∈ tableFields b, field < 0x100000000 := fun _ => lt_of_mem_tableFields
  have hoffsets : (∀ slot ∈ (tableFields b).map fun (field : Nat) => OffsetEntry.ofField field,
      slot.offset ≤ maxOffset) ↔ ∀ field ∈ tableFields b, field / 256 ≤ 0xFFFF := by
    rw [List.forall_mem_map]
    apply forall₂_congr
    intro field hfield
    rw [OffsetEntry.offset_ofField (hfields field hfield)]
    rfl
  have hpopulated : minPopulatedSlots ≤ (populatedEntries (tableFields b)).length ↔
      4 ≤ (tableFields b).countP fun field => field % 256 ≠ 0 := by
    rw [populatedEntries_eq, List.length_map, ← List.countP_eq_length_filter]
    rfl
  have hdistinct : (OffsetEntry.claims (populatedEntries (tableFields b))).length =
      (populatedEntries (tableFields b)).length ↔ _ := OffsetEntry.length_claims_eq_iff
  rw [map_offset_populatedEntries hfields] at hdistinct
  have hroom := fit_claims_iff hfields tableSectors
  -- Each rule is one of the tests, said of the fields and not of the sorted claims.
  refine isOffsetTable_iff.trans ?_
  rw [← populatedEntries, hoffsets, hpopulated, hdistinct, hroom]
  exact ⟨fun ⟨h₁, h₂, h₃, h₄⟩ => ⟨h₁, h₂, h₃, h₄⟩, fun h => ⟨h.1, h.2, h.3, h.4⟩⟩

/-- An offset table is what the rules say, on the fields of the first block, or on those that are
there; and if duplicates are rejected, its slots may stand in any order. -/
theorem isOffsetTable_byRules (b : ByteArray) (rejectDuplicates : Bool) :
    tableFields b = (List.range (min 4096 b.size / 4)).map (fun i => be32 b (4 * i)) ∧
      (isOffsetTable b rejectDuplicates = true ↔
        OffsetTableRules (tableFields b) rejectDuplicates) ∧
      ∀ b', (tableFields b).Perm (tableFields b') →
        isOffsetTable b true = isOffsetTable b' true := by
  refine ⟨tableFields_eq b, isOffsetTable_iff_rules b rejectDuplicates, fun b' hperm => ?_⟩
  rw [Bool.eq_iff_iff, isOffsetTable_iff_rules, isOffsetTable_iff_rules]
  exact ⟨fun h => h.perm hperm, fun h => h.perm hperm.symm⟩

/-- A table of five slots, of which one is unused, and the same slots in another order. -/
def looseTable : ByteArray := ⟨#[0, 0, 8, 3, 0, 0, 2, 1, 0, 0, 11, 1, 0, 0, 3, 2, 0, 0, 2, 0]⟩

def reorderedTable : ByteArray := ⟨#[0, 0, 2, 0, 0, 0, 2, 1, 0, 0, 3, 2, 0, 0, 8, 3, 0, 0, 11, 1]⟩

theorem isOffsetTable_reorderedTable :
    (tableFields looseTable).Perm (tableFields reorderedTable) ∧
      isOffsetTable looseTable true = true ∧ isOffsetTable reorderedTable true = true := by
  have hperm : (tableFields looseTable).Perm (tableFields reorderedTable) := by decide +kernel
  obtain ⟨-, -, hsame⟩ := isOffsetTable_byRules looseTable true
  have hloose : isOffsetTable looseTable true = true := by decide +kernel
  exact ⟨hperm, hloose, (hsame _ hperm).symm.trans hloose⟩

end RegionSalvage
