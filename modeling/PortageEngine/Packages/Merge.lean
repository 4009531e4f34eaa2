import PortageEngine.Packages.Index

/-!
# A merge is an overlay

The newer index wins: a merge lists its stanzas and those of the older one under other paths, each
with the text it had. So merging again changes nothing, and it does not matter which two of three
indexes are merged first. All this holds as long as the reader takes the merged index for what was
written: the architecture has no line feed, no `\r\n` is left in a stanza once line ends are
normalised, and the merged index is within the size limit.
-/

namespace PortageEngine.Packages

open List Library Library.Rows Library.Text Library.Overlay Library.Decimal

/-- An index that is read as these stanzas, with plain line ends in them. -/
structure Accepted (document : Text) (stanzas : List PackagesStanza) : Prop where
  read : sourceStanzas document = .ok stanzas
  plain : Plain stanzas

variable {a b c ab bc arch : Text} {as bs cs : List PackagesStanza} {t t' t'' : Nat}

theorem Accepted.readable (h : Accepted a as) : Readable as :=
  (sourceStanzas_readable h.read).1

theorem mergePackagesIndexes_of_read (harch : trimChars arch ≠ []) (ht : t ≠ 0)
    (ha : sourceStanzas a = .ok as) (hb : sourceStanzas b = .ok bs) :
    mergePackagesIndexes a b arch t = .ok (renderIndex arch t (mergedStanzas as bs)) := by
  simp only [mergePackagesIndexes, bind_eq_ok]
  exact ⟨(), by simp [harch, ht], as, ha, bs, hb, rfl⟩

/-- What was written for two accepted indexes is accepted, within the size limit. -/
theorem Accepted.merged (harch : '\n' ∉ arch) (ha : Accepted a as) (hb : Accepted b bs)
    (hsize : byteLength (renderIndex arch t (mergedStanzas as bs)) ≤ mergeLimit) :
    parsePackagesStanzas (renderIndex arch t (mergedStanzas as bs)) = .ok (mergedStanzas as bs) ∧
      Accepted (renderIndex arch t (mergedStanzas as bs)) (mergedStanzas as bs) := by
  have hplain := ha.plain.merged hb.plain hb.readable.1
  have hparse : parsePackagesStanzas (renderIndex arch t (mergedStanzas as bs)) =
      .ok (mergedStanzas as bs) := by
    rw [parsePackagesStanzas, require_bind_eq_ok]
    exact ⟨decide_eq_true hsize,
      readStanzas_renderIndex harch (ha.readable.merged hb.readable) hplain⟩
  refine ⟨hparse, ?_, hplain⟩
  rw [sourceStanzas, if_neg (by simp [renderIndex]), hparse]

/-- Maps with the same entries are listed alike. -/
theorem sorted_congr (ha : Keyed PackagesStanza.path as) (hb : Keyed PackagesStanza.path bs)
    (h : ∀ x, x ∈ as ↔ x ∈ bs) :
    sorted PackagesStanza.rank as = sorted PackagesStanza.rank bs := by
  have hperm : as.Perm bs := (perm_ext_iff_of_nodup ha.of_map hb.of_map).mpr h
  refine List.Perm.eq_of_pairwise ?_ (pairwise_insertionSort _ as)
    (pairwise_insertionSort _ bs) ?_
  · intro x y hx hy hxy hyx
    have hrank := congrArg (fun r => (ofLex r).2) (le_antisymm hxy hyx)
    exact ha.eq (mem_sorted.mp hx) ((h y).mpr (mem_sorted.mp hy)) hrank
  · exact (perm_insertionSort _ as).trans (hperm.trans (perm_insertionSort _ bs).symm)

theorem mem_mergedStanzas (hb : Keyed PackagesStanza.path bs) {x : PackagesStanza} :
    x ∈ mergedStanzas as bs ↔ x ∈ bs ∨ (x ∈ as ∧ ∀ y ∈ bs, y.path ≠ x.path) :=
  mem_sorted.trans (mem_overlay hb)

theorem mergedStanzas_self (ha : Keyed PackagesStanza.path as) :
    mergedStanzas (mergedStanzas as bs) (mergedStanzas as bs) = mergedStanzas as bs := by
  have hmerged : Keyed PackagesStanza.path (overlay PackagesStanza.path as bs) := Keyed.overlay ha
  have hlisted : Keyed PackagesStanza.path (mergedStanzas as bs) := Keyed.sorted hmerged
  refine sorted_congr (Keyed.overlay hlisted) hmerged fun x => ?_
  rw [mem_overlay hlisted, mergedStanzas, mem_sorted]
  exact ⟨fun h => h.elim id And.left, .inl⟩

theorem mergedStanzas_assoc (ha : Keyed PackagesStanza.path as) (hb : Keyed PackagesStanza.path bs)
    (hc : Keyed PackagesStanza.path cs) :
    mergedStanzas (mergedStanzas as bs) cs = mergedStanzas as (mergedStanzas bs cs) := by
  have hab : Keyed PackagesStanza.path (mergedStanzas as bs) := Keyed.sorted (Keyed.overlay ha)
  have hbc : Keyed PackagesStanza.path (mergedStanzas bs cs) := Keyed.sorted (Keyed.overlay hb)
  refine sorted_congr (Keyed.overlay hab) (Keyed.overlay ha) fun x => ?_
  rw [mem_overlay hc, mem_overlay hbc, mem_mergedStanzas hb, mem_mergedStanzas hc]
  -- the paths of the merge of `bs` and `cs` are those of both
  have hpaths : (∀ y ∈ mergedStanzas bs cs, y.path ≠ x.path) ↔
      (∀ y ∈ bs, y.path ≠ x.path) ∧ ∀ y ∈ cs, y.path ≠ x.path := by
    have hkeys := @mem_keys_overlay _ _ _ PackagesStanza.path bs cs x.path
    simp only [mergedStanzas, mem_sorted]
    rw [← not_iff_not]
    simpa only [not_forall, not_and_or, not_not, exists_prop] using hkeys
  grind

/-- For an architecture without line feeds and indexes whose stanzas have plain line ends, a merge
writes the newer stanzas and the older ones under other paths, and declares their number. It is read
back as these; merged with itself it stays the same but for the timestamp; and of three indexes, it
does not matter which two are merged first. The last three suppose that what is read again is within
the size limit. -/
theorem merge_is_overlay (harch : '\n' ∉ arch) (hnonblank : trimChars arch ≠ [])
    (ht : t ≠ 0) (ha : Accepted a as) (hb : Accepted b bs) :
    ∃ ab merged, mergePackagesIndexes a b arch t = .ok ab ∧ ab = renderIndex arch t merged ∧
      Keyed PackagesStanza.path merged ∧
      (∀ x, x ∈ merged ↔ x ∈ bs ∨ (x ∈ as ∧ ∀ y ∈ bs, y.path ≠ x.path)) ∧
      (byteLength ab ≤ mergeLimit → parsePackagesStanzas ab = .ok merged ∧
        (∀ t', t' ≠ 0 → mergePackagesIndexes ab ab arch t' = .ok (renderIndex arch t' merged)) ∧
        ∀ c cs t' t'' bc, Accepted c cs → t' ≠ 0 → t'' ≠ 0 →
          mergePackagesIndexes b c arch t' = .ok bc → byteLength bc ≤ mergeLimit →
          mergePackagesIndexes ab c arch t'' = mergePackagesIndexes a bc arch t'') := by
  refine ⟨_, mergedStanzas as bs, mergePackagesIndexes_of_read hnonblank ht ha.read hb.read, rfl,
    Keyed.sorted (Keyed.overlay ha.readable.1), fun x => mem_mergedStanzas hb.readable.1,
    fun hsize => ?_⟩
  rcases ha.merged harch hb hsize with ⟨hparse, hab⟩
  refine ⟨hparse, fun t' ht' => ?_, fun c cs t' t'' bc hc ht' ht'' hbc hsize' => ?_⟩
  · rw [mergePackagesIndexes_of_read hnonblank ht' hab.read hab.read,
      mergedStanzas_self ha.readable.1]
  · rw [mergePackagesIndexes_of_read hnonblank ht' hb.read hc.read] at hbc
    cases hbc
    rw [mergePackagesIndexes_of_read hnonblank ht'' hab.read hc.read,
      mergePackagesIndexes_of_read hnonblank ht'' ha.read (hb.merged harch hc hsize').2.read,
      mergedStanzas_assoc ha.readable.1 hb.readable.1 hc.readable.1]

def exampleStanza (cpv path : String) : PackagesStanza :=
  ⟨cpv.toList, path.toList, s!"CPV: {cpv}\nSIZE: 4\nPATH: {path}".toList⟩

def olderIndex : Text :=
  "VERSION: 0\r\n\r\nCPV: a-1\r\nSIZE: 4\r\nPATH: a\n\nCPV: b-1\nSIZE: 4\nPATH: b".toList

def newerIndex : Text :=
  "VERSION: 0\n\nCPV: c-1\nSIZE: 4\nPATH: c\n\nCPV: b-2\nSIZE: 4\nPATH: b".toList

def overlaidIndex : Text :=
  ("ARCH: x\t86\nTIMESTAMP: 7\nVERSION: 0\nPACKAGES: 3\n\nCPV: a-1\nSIZE: 4\nPATH: a\n\n" ++
    "CPV: b-2\nSIZE: 4\nPATH: b\n\nCPV: c-1\nSIZE: 4\nPATH: c\n\n").toList

/-- The newer stanza under the path `b` takes the place of the older one. -/
theorem merge_is_overlay_replaced :
    let older := [exampleStanza "a-1" "a", exampleStanza "b-1" "b"]
    let newer := [exampleStanza "c-1" "c", exampleStanza "b-2" "b"]
    mergePackagesIndexes olderIndex newerIndex "x\t86".toList 7000000 = .ok overlaidIndex ∧
      ∃ merged, parsePackagesStanzas overlaidIndex = .ok merged ∧
        ∀ x, x ∈ merged ↔ x ∈ newer ∨ (x ∈ older ∧ ∀ y ∈ newer, y.path ≠ x.path) := by
  intro older newer
  have holder : Accepted olderIndex older := ⟨rfl, by unfold Plain; decide +kernel⟩
  have hnewer : Accepted newerIndex newer := ⟨rfl, by unfold Plain; decide +kernel⟩
  have hcomputed : mergePackagesIndexes olderIndex newerIndex "x\t86".toList 7000000 =
      .ok overlaidIndex := by decide +kernel
  rcases merge_is_overlay (by decide : '\n' ∉ "x\t86".toList) (by decide)
    (by decide : 7000000 ≠ 0) holder hnewer with ⟨ab, merged, hmerge, -, -, hmem, hread⟩
  rw [hcomputed, Except.ok.injEq] at hmerge
  rw [← hmerge] at hread
  exact ⟨hcomputed, merged, (hread (by decide +kernel)).1, hmem⟩

/-- A carriage return before a line end is part of a value, until the merged index is read. -/
theorem merge_changes_value :
    let document := "VERSION: 0\n\nCPV: a-1\nX: b\r\r\nSIZE: 4\nPATH: a".toList
    ∃ stanzas ab merged, parsePackagesStanzas document = .ok stanzas ∧
      mergePackagesIndexes [] document ['x'] 7000000 = .ok ab ∧
      parsePackagesStanzas ab = .ok merged ∧ merged ≠ stanzas := by
  refine ⟨_, _, _, rfl, rfl, rfl, ?_⟩
  decide +kernel

end PortageEngine.Packages
