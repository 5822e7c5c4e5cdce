import Mathlib.Data.List.AList
import OtaPlatform.Smsframe.Frame
import OtaPlatform.Transition.Program

/-!
# CAP files

A CAP file is a ZIP archive whose `.cap` entries are the components of a Java Card package. The
archive is given by its entries, each of which may fail to be opened or read. Of two entries with
the same base name the last one counts.

The load file is made of the components, the known ones in the order of the specification and the
others after them by name. The AID of the package is a field of the header component; it is empty
if there is no header or the header is too short.
-/

namespace OtaPlatform

/-- Why an entry of an archive was not read. -/
inductive ZipError
  | openFailed (err : String)
  | readFailed (err : String)

structure ZipEntry where
  name : String
  content : Except ZipError Bytes

/-- The components of a file by name. -/
abbrev CAPSections := AList fun _ : String ↦ Bytes

structure CAPFile where
  filename : String
  aid : Bytes
  sections : CAPSections
  loadFile : Bytes

def sectionOrder : List String :=
  ["Header", "Directory", "Import", "Applet", "Class", "Method", "StaticField", "Export",
    "ConstantPool", "RefLocation"]

def ZipEntry.isSection (file : ZipEntry) : Bool :=
  ".cap".toList.isSuffixOf (file.name.toList.map Char.toLower)

/-- The name without its path and without `.cap`. -/
def ZipEntry.sectionName (file : ZipEntry) : String :=
  let baseName := (file.name.toList.reverse.takeWhile (· ≠ '/')).reverse
  if ".cap".toList.isSuffixOf baseName then String.ofList (baseName.take (baseName.length - 4))
  else String.ofList baseName

/-- The components of an archive. -/
def readSections : List ZipEntry → CAPSections → Except String CAPSections
  | [], sections => .ok sections
  | file :: files, sections =>
    if file.isSection then
      match file.content with
      | .ok data => readSections files (sections.insert file.sectionName data)
      | .error (.openFailed err) =>
        .error ("failed to open section " ++ file.sectionName ++ ": " ++ err)
      | .error (.readFailed err) =>
        .error ("failed to read section " ++ file.sectionName ++ ": " ++ err)
    else readSections files sections

/-- The names of the components in the order of the load file. -/
def orderedSections (sections : CAPSections) : List String :=
  sectionOrder.filter (· ∈ sections) ++
    (sections.keys.filter fun name ↦ name ∉ sectionOrder).mergeSort (· ≤ ·)

/-- The components, one after the other. -/
def assembleLoadFile (sections : CAPSections) : Bytes :=
  (orderedSections sections).flatMap fun name ↦ (sections.lookup name).getD []

def extractAID (sections : CAPSections) : Bytes :=
  match sections.lookup "Header" with
  | none => []
  | some header =>
    match header[12]? with
    | none => []
    | some aidLen =>
      if 13 + aidLen.toNat > header.length then [] else (header.drop 13).take aidLen.toNat

def parseCAPFile (archive : Except String (List ZipEntry)) (filename : String) :
    Except String CAPFile :=
  match archive with
  | .error err => .error ("failed to open CAP file as ZIP: " ++ err)
  | .ok files => do
    let sections ← readSections files ∅
    if sections.keys = [] then throw ("no CAP sections found in " ++ filename)
    return {
      filename := filename
      aid := extractAID sections
      sections := sections
      loadFile := assembleLoadFile sections }

/-! ## What is read -/

theorem parseCAPFile_spec {archive : Except String (List ZipEntry)} {filename : String}
    {cap : CAPFile} (h : parseCAPFile archive filename = .ok cap) :
    cap.aid = extractAID cap.sections ∧ cap.loadFile = assembleLoadFile cap.sections := by
  cases archive with
  | error err => cases h
  | ok files =>
    obtain ⟨sections, -, h⟩ := bind_eq_ok.mp h
    split_ifs at h
    · cases h
    · obtain rfl := Except.ok.inj h
      exact ⟨rfl, rfl⟩

theorem exists_assembleLoadFile {sections : CAPSections} {header : Bytes}
    (h : sections.lookup "Header" = some header) :
    ∃ rest, assembleLoadFile sections = header ++ rest := by
  have hmem : "Header" ∈ sections := by
    rw [← AList.lookup_isSome, h]
    rfl
  obtain ⟨names, hnames⟩ : ∃ names, sectionOrder.filter (· ∈ sections) = "Header" :: names :=
    ⟨_, List.filter_cons_of_pos (decide_eq_true hmem)⟩
  rw [assembleLoadFile, orderedSections, hnames, List.cons_append, List.flatMap_cons, h]
  exact ⟨_, rfl⟩

theorem assembleLoadFile_ne_nil {sections : CAPSections} (h : extractAID sections ≠ []) :
    assembleLoadFile sections ≠ [] := by
  rw [extractAID] at h
  cases hheader : sections.lookup "Header" with
  | none =>
    rw [hheader] at h
    exact absurd rfl h
  | some header =>
    rw [hheader] at h
    obtain ⟨rest, hload⟩ := exists_assembleLoadFile hheader
    rw [hload]
    intro hnil
    rw [(List.append_eq_nil_iff.mp hnil).1] at h
    exact h rfl

end OtaPlatform
