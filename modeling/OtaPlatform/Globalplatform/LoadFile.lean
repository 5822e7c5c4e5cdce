import Mathlib.Data.List.Sort
import Mathlib.Data.String.Basic
import OtaPlatform.Globalplatform.CapFile

/-!
# The order of the load file

The sections of a file are kept in a map, and a map is iterated in no particular order: here the
order of the entries. The names of the standard components are filtered out of a fixed list, so
that they come in its order; the other names are collected in the order of the iteration and sorted
afterwards. A sorted list without repetitions is determined by its members, so nothing is left of
the order of the iteration.

## The order of the archive

The sections are inserted in the order of the entries of the archive, and an entry replaces an
earlier one of the same section. If no two entries are of the same section nothing is replaced, and
a lookup finds the only entry of the section wherever it stands. An entry that cannot be read stops
the loop wherever it stands as well; which entry is named in the error does depend on the order.
-/

namespace OtaPlatform

open List

def CAPSections.content (sections : CAPSections) (name : String) : Bytes :=
  (sections.lookup name).getD []

/-- The two files hold the same: the sections are those of one map, iterated in two orders. -/
structure CAPFile.Same (cap cap' : CAPFile) : Prop where
  sections : cap.sections.entries.Perm cap'.sections.entries
  aid : cap.aid = cap'.aid
  loadFile : cap.loadFile = cap'.loadFile

/-! ## The names in order -/

/-- The names of the sections that are no standard components. -/
private def otherSections (sections : CAPSections) : List String :=
  (sections.keys.filter fun name ↦ name ∉ sectionOrder).mergeSort (· ≤ ·)

variable {sections : CAPSections}

private theorem mem_otherSections {name : String} :
    name ∈ otherSections sections ↔ name ∈ sections ∧ name ∉ sectionOrder := by
  rw [otherSections, mem_mergeSort, mem_filter, decide_eq_true_iff, AList.mem_keys]

private theorem nodup_otherSections (sections : CAPSections) : (otherSections sections).Nodup :=
  (mergeSort_perm _ _).nodup_iff.mpr (sections.keys_nodup.filter _)

private theorem sortedLT_otherSections (sections : CAPSections) :
    (otherSections sections).SortedLT :=
  SortedLE.sortedLT_of_nodup sortedLE_mergeSort (nodup_otherSections sections)

private theorem orderedSections_perm (sections : CAPSections) :
    (orderedSections sections).Perm sections.keys := by
  have hdisjoint : Disjoint (sectionOrder.filter (· ∈ sections)) (otherSections sections) :=
    fun name hstandard hother ↦
      (mem_otherSections.mp hother).2 (mem_of_mem_filter hstandard)
  have hnodup : (orderedSections sections).Nodup :=
    ((Nodup.filter _ (by decide)).append (nodup_otherSections sections) hdisjoint)
  refine (perm_ext_iff_of_nodup hnodup sections.keys_nodup).mpr fun name ↦ ?_
  change name ∈ sectionOrder.filter (· ∈ sections) ++ otherSections sections ↔ _
  rw [mem_append, mem_filter, mem_otherSections, decide_eq_true_iff, AList.mem_keys]
  tauto

private theorem orderedSections_of_perm {sections' : CAPSections}
    (h : sections.entries.Perm sections'.entries) :
    orderedSections sections = orderedSections sections' := by
  have hmem : ∀ name, name ∈ sections ↔ name ∈ sections' := fun name ↦ AList.mem_of_perm h
  have hstandard : sectionOrder.filter (· ∈ sections) = sectionOrder.filter (· ∈ sections') :=
    filter_congr fun name _ ↦ decide_eq_decide.mpr (hmem name)
  have hother : otherSections sections = otherSections sections' := by
    refine (sortedLT_otherSections sections).eq_of_mem_iff (sortedLT_otherSections sections')
      fun name ↦ ?_
    rw [mem_otherSections, mem_otherSections, hmem]
  change _ ++ otherSections sections = _ ++ otherSections sections'
  rw [hstandard, hother]

private theorem assembleLoadFile_of_perm {sections' : CAPSections}
    (h : sections.entries.Perm sections'.entries) :
    assembleLoadFile sections = assembleLoadFile sections' := by
  rw [assembleLoadFile, assembleLoadFile, orderedSections_of_perm h]
  exact congrArg (flatMap · _) (funext fun name ↦ by rw [AList.perm_lookup h])

/-! ## The archive -/

private def Readable (files : List ZipEntry) : Prop :=
  ∀ file ∈ files, file.isSection → ∃ data, file.content = .ok data

variable {files : List ZipEntry}

private theorem readSections_ok_iff :
    (∃ result, readSections files sections = .ok result) ↔ Readable files := by
  induction files generalizing sections with
  | nil => exact ⟨fun _ _ h ↦ absurd h not_mem_nil, fun _ ↦ ⟨sections, rfl⟩⟩
  | cons file files ih =>
    rw [Readable, forall_mem_cons]
    by_cases hsection : file.isSection
    · cases hcontent : file.content with
      | ok data =>
        rw [readSections, if_pos hsection, hcontent]
        exact ih.trans ⟨fun h ↦ ⟨fun _ ↦ ⟨data, rfl⟩, h⟩, fun h ↦ h.2⟩
      | error err =>
        refine ⟨fun h ↦ ?_, fun h ↦ ?_⟩
        · obtain ⟨result, hresult⟩ := h
          rw [readSections, if_pos hsection, hcontent] at hresult
          cases err <;> cases hresult
        · obtain ⟨data, hdata⟩ := h.1 hsection
          cases hdata
    · rw [readSections, if_neg hsection]
      exact ih.trans ⟨fun h ↦ ⟨fun hpos ↦ absurd hpos hsection, h⟩, fun h ↦ h.2⟩

def sectionNames (files : List ZipEntry) : List String :=
  (files.filter ZipEntry.isSection).map ZipEntry.sectionName

/-- What a lookup finds: the entry of the section, or what was there if there is none. -/
private theorem lookup_readSections {result : CAPSections} (hnames : (sectionNames files).Nodup)
    (h : readSections files sections = .ok result) {name : String} {data : Bytes} :
    result.lookup name = some data ↔
      (∃ file ∈ files, file.isSection ∧ file.sectionName = name ∧ file.content = .ok data) ∨
        name ∉ sectionNames files ∧ sections.lookup name = some data := by
  induction files generalizing sections with
  | nil =>
    cases h
    simp [sectionNames]
  | cons file files ih =>
    by_cases hsection : file.isSection
    · have hcons : sectionNames (file :: files) = file.sectionName :: sectionNames files := by
        rw [sectionNames, filter_cons_of_pos hsection]
        rfl
      rw [hcons] at hnames ⊢
      obtain ⟨hnot, hnames⟩ := nodup_cons.mp hnames
      cases hcontent : file.content with
      | error err =>
        rw [readSections, if_pos hsection, hcontent] at h
        cases err <;> cases h
      | ok content =>
        rw [readSections, if_pos hsection, hcontent] at h
        rw [ih hnames h]
        by_cases hname : name = file.sectionName
        · -- The section is inserted here, and no later entry replaces it.
          subst hname
          have hlater : ¬∃ other ∈ files, other.isSection ∧
              other.sectionName = file.sectionName ∧ other.content = .ok data :=
            fun ⟨other, hother, hpos, hname, _⟩ ↦
              hnot (hname ▸ mem_map_of_mem (mem_filter.mpr ⟨hother, hpos⟩))
          simp only [mem_cons, exists_eq_or_imp, hlater, hsection, hcontent, hnot,
            AList.lookup_insert, not_true_eq_false, not_false_eq_true, true_and, false_or,
            false_and, or_false, Except.ok.injEq, Option.some.injEq]
        · rw [AList.lookup_insert_ne hname]
          simp only [mem_cons, exists_eq_or_imp, hname, Ne.symm hname, false_or, false_and,
            and_false]
    · have hcons : sectionNames (file :: files) = sectionNames files := by
        rw [sectionNames, filter_cons_of_neg hsection]
        rfl
      rw [hcons] at hnames ⊢
      rw [readSections, if_neg hsection] at h
      rw [ih hnames h]
      simp only [mem_cons, exists_eq_or_imp, hsection, Bool.false_eq_true, false_and, false_or]

private theorem readSections_of_perm {files' : List ZipEntry} (hperm : files.Perm files')
    (hnames : (sectionNames files).Nodup) (h : readSections files ∅ = .ok sections) :
    ∃ sections', readSections files' ∅ = .ok sections' ∧
      sections.entries.Perm sections'.entries := by
  have hreadable : Readable files' := fun file hfile ↦
    readSections_ok_iff.mp ⟨sections, h⟩ file (hperm.mem_iff.mpr hfile)
  obtain ⟨sections', h'⟩ := readSections_ok_iff.mpr hreadable
  have hnames' : (sectionNames files').Nodup :=
    ((hperm.filter _).map _).nodup_iff.mp hnames
  refine ⟨sections', h', lookup_ext sections.nodupKeys sections'.nodupKeys fun name data ↦ ?_⟩
  change sections.lookup name = some data ↔ sections'.lookup name = some data
  rw [lookup_readSections hnames h, lookup_readSections hnames' h']
  simp only [hperm.mem_iff, AList.lookup_empty, reduceCtorEq, and_false]

private theorem parseCAPFile_of_perm {files' : List ZipEntry} (hperm : files.Perm files')
    (hnames : (sectionNames files).Nodup) {filename : String} {cap : CAPFile}
    (h : parseCAPFile (.ok files) filename = .ok cap) :
    ∃ cap', parseCAPFile (.ok files') filename = .ok cap' ∧ cap.Same cap' := by
  obtain ⟨sections, hread, h⟩ := bind_eq_ok.mp h
  obtain ⟨sections', hread', hsame⟩ := readSections_of_perm hperm hnames hread
  have hperm : sections.keys.Perm sections'.keys := hsame.map Sigma.fst
  have hkeys : sections.keys = [] ↔ sections'.keys = [] := by
    rw [← length_eq_zero_iff, ← length_eq_zero_iff, hperm.length_eq]
  split_ifs at h with hempty
  · cases h
  · obtain rfl := Except.ok.inj h
    refine ⟨_, bind_eq_ok.mpr ⟨sections', hread', if_neg (mt hkeys.mpr hempty)⟩, ?_⟩
    refine ⟨hsame, ?_, assembleLoadFile_of_perm hsame⟩
    rw [extractAID, extractAID, AList.perm_lookup hsame]

/-- **The load file is the sections in order, whatever the order they are met in.** The file is
made of the contents of the sections, each once: the standard components that are there in the order
of the specification, and after them the others, sorted by name. It is the same for every order in
which the map of the sections is iterated. If no two entries of an archive are of the same section,
the archive gives the same sections, AID and load file in every order of its entries, and is refused
in every order if it is refused in one. -/
theorem loadFile_independent_of_order :
    (∀ sections : CAPSections, ∃ others : List String,
      others.Pairwise (· < ·) ∧
      (∀ name, name ∈ others ↔ name ∈ sections ∧ name ∉ sectionOrder) ∧
      (sectionOrder.filter (· ∈ sections) ++ others).Perm sections.keys ∧
      assembleLoadFile sections =
        (sectionOrder.filter (· ∈ sections) ++ others).flatMap sections.content) ∧
    (∀ sections sections' : CAPSections, sections.entries.Perm sections'.entries →
      assembleLoadFile sections = assembleLoadFile sections') ∧
    ∀ (files files' : List ZipEntry) (filename : String), files.Perm files' →
      (sectionNames files).Nodup →
      (∃ cap cap', parseCAPFile (.ok files) filename = .ok cap ∧
        parseCAPFile (.ok files') filename = .ok cap' ∧ cap.Same cap') ∨
      ∃ err err', parseCAPFile (.ok files) filename = .error err ∧
        parseCAPFile (.ok files') filename = .error err' := by
  refine ⟨fun sections ↦ ⟨otherSections sections, (sortedLT_otherSections sections).pairwise,
    fun name ↦ mem_otherSections, orderedSections_perm sections, rfl⟩,
    fun sections sections' h ↦ assembleLoadFile_of_perm h, ?_⟩
  intro files files' filename hperm hnames
  cases h : parseCAPFile (.ok files) filename with
  | ok cap =>
    obtain ⟨cap', h', hsame⟩ := parseCAPFile_of_perm hperm hnames h
    exact .inl ⟨cap, cap', rfl, h', hsame⟩
  | error err =>
    cases h' : parseCAPFile (.ok files') filename with
    | ok cap' =>
      have hnames' : (sectionNames files').Nodup := ((hperm.filter _).map _).nodup_iff.mp hnames
      obtain ⟨cap, hcap, -⟩ := parseCAPFile_of_perm hperm.symm hnames' h'
      rw [h] at hcap
      cases hcap
    | error err' => exact .inr ⟨err, err', rfl, rfl⟩

private def packageEntries : List ZipEntry :=
  [⟨"pkg/Directory.cap", .ok [2]⟩, ⟨"pkg/Header.cap", .ok [1]⟩, ⟨"META-INF/MANIFEST.MF", .ok []⟩]

theorem loadFile_independent_of_order_reversed :
    (sectionNames packageEntries).Nodup ∧
      ∃ cap cap', parseCAPFile (.ok packageEntries) "a.cap" = .ok cap ∧
        parseCAPFile (.ok packageEntries.reverse) "a.cap" = .ok cap' ∧ cap.Same cap' := by
  have hnames : (sectionNames packageEntries).Nodup := by decide +kernel
  have hok : (parseCAPFile (.ok packageEntries) "a.cap").isOk = true := by decide +kernel
  refine ⟨hnames, ?_⟩
  rcases loadFile_independent_of_order.2.2 _ _ "a.cap" packageEntries.reverse_perm.symm hnames with
    h | ⟨err, err', h, -⟩
  · exact h
  · rw [h] at hok
    cases hok

end OtaPlatform
