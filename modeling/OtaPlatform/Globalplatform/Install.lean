import OtaPlatform.Globalplatform.Apdu

/-!
# INSTALL [for INSTALL and make selectable]

The command that creates an applet. Its data field is a sequence of fields that begin with their
lengths: three identifiers, the privileges, the parameters and the token. The parameters are one
object with tag C9, or nothing; its value is what the caller gives as toolkit parameters, followed
by the applet's own parameters. The toolkit parameters are an object with tag C9 themselves.

## Reading

The card reads the command by its length octets. `readInstall` does the same and keeps what is left
over. Each reader returns the octets behind the field it read, and its lemma is about a field in
front of any octets, so that the lemmas follow each other as the fields do.
-/

namespace OtaPlatform

open List

/-- INSTALL [for INSTALL]: the parameters are left out when there are none, and there is no
token. -/
def buildInstallForInstallAPDU (loadFileAID moduleAID appAID : Bytes) (privilege : UInt8)
    (stkParams installParams : Bytes) : Bytes :=
  let paramsField :=
    if 0 < stkParams.length ∨ 0 < installParams.length then
      0xC9 :: lengthPrefixed (stkParams ++ installParams)
    else []
  buildAPDU insInstall 0x0C 0x00
    (lengthPrefixed loadFileAID ++ lengthPrefixed moduleAID ++ lengthPrefixed appAID ++
      [0x01, privilege] ++ lengthPrefixed paramsField ++ [0x00])

/-- The toolkit parameters of an applet. -/
def buildSTKParameters (maxMenuItems : ℤ) (menuIDPositions accessDomain : Bytes)
    (priorityLevel maxTimers maxMenuEntryLength maxChannels : UInt8) : Bytes :=
  0xC9 :: lengthPrefixed (UInt8.ofNat (maxMenuItems % 256).toNat ::
    (lengthPrefixed menuIDPositions ++ lengthPrefixed accessDomain ++
      [priorityLevel, maxTimers, maxMenuEntryLength, maxChannels]))

/-- What the toolkit parameters are built from. -/
structure STKParameters where
  maxMenuItems : ℤ
  /-- Identifier and position of each entry. -/
  menuIDPositions : Bytes
  accessDomain : Bytes
  priorityLevel : UInt8
  maxTimers : UInt8
  maxMenuEntryLength : UInt8
  maxChannels : UInt8
deriving DecidableEq, Repr

/-- The octets of the toolkit parameters. -/
def STKParameters.build (stk : STKParameters) : Bytes :=
  buildSTKParameters stk.maxMenuItems stk.menuIDPositions stk.accessDomain stk.priorityLevel
    stk.maxTimers stk.maxMenuEntryLength stk.maxChannels

/-! ## Fields that begin with their length -/

/-- Reads a field and returns what follows it. -/
def readPrefixed : Bytes → Option (Bytes × Bytes)
  | [] => none
  | n :: rest =>
    if n.toNat ≤ rest.length then some (rest.take n.toNat, rest.drop n.toNat) else none

/-- Reads an object with this tag and returns what follows it. -/
def readTagged (tag : UInt8) : Bytes → Option (Bytes × Bytes)
  | [] => none
  | t :: rest => if t = tag then readPrefixed rest else none

theorem length_lengthPrefixed (field : Bytes) : (lengthPrefixed field).length = field.length + 1 :=
  rfl

theorem readPrefixed_append {field : Bytes} (h : field.length ≤ 255) (rest : Bytes) :
    readPrefixed (lengthPrefixed field ++ rest) = some (field, rest) := by
  have hlength : (UInt8.ofNat field.length).toNat = field.length := by
    rw [UInt8.toNat_ofNat', Nat.mod_eq_of_lt (by omega)]
  rw [lengthPrefixed, cons_append, readPrefixed, hlength, length_append,
    if_pos (Nat.le_add_right _ _), take_left, drop_left]

theorem readTagged_append (tag : UInt8) {value : Bytes} (h : value.length ≤ 255) (rest : Bytes) :
    readTagged tag ((tag :: lengthPrefixed value) ++ rest) = some (value, rest) := by
  rw [cons_append, readTagged, if_pos rfl, readPrefixed_append h]

/-! ## Reading the command -/

/-- What the card reads from INSTALL [for INSTALL]. -/
structure InstallCommand where
  loadFileAID : Bytes
  moduleAID : Bytes
  appAID : Bytes
  privileges : Bytes
  /-- The value of the object C9, if there is one. -/
  params : Option Bytes
  token : Bytes
  /-- The octets that belong to no field. -/
  leftover : Bytes
deriving DecidableEq, Repr

/-- The parameters: nothing, or an object with tag C9 and nothing behind it. -/
def readParams (paramsField : Bytes) : Option (Option Bytes) :=
  if paramsField = [] then some none
  else
    match readTagged 0xC9 paramsField with
    | some (value, []) => some (some value)
    | _ => none

def readInstallData (data : Bytes) : Option InstallCommand := do
  let (loadFileAID, data) ← readPrefixed data
  let (moduleAID, data) ← readPrefixed data
  let (appAID, data) ← readPrefixed data
  let (privileges, data) ← readPrefixed data
  let (paramsField, data) ← readPrefixed data
  let (token, data) ← readPrefixed data
  let params ← readParams paramsField
  return ⟨loadFileAID, moduleAID, appAID, privileges, params, token, data⟩

/-- Reads INSTALL [for INSTALL] by its length octets. What is behind the data field is left over as
well. -/
def readInstall : Bytes → Option InstallCommand
  | cla :: ins :: p1 :: p2 :: lc :: rest =>
    if cla = claGlobalPlatform ∧ ins = insInstall ∧ p1 = 0x0C ∧ p2 = 0x00 then
      (readInstallData (rest.take lc.toNat)).map fun cmd ↦
        { cmd with leftover := cmd.leftover ++ rest.drop lc.toNat }
    else none
  | _ => none

/-- Reads the value of the toolkit parameters. -/
def readSTKParameters : Bytes → Option STKParameters
  | [] => none
  | maxMenuItems :: rest => do
    let (menuIDPositions, rest) ← readPrefixed rest
    let (accessDomain, rest) ← readPrefixed rest
    match rest with
    | [priorityLevel, maxTimers, maxMenuEntryLength, maxChannels] =>
      return ⟨maxMenuItems.toNat, menuIDPositions, accessDomain, priorityLevel, maxTimers,
        maxMenuEntryLength, maxChannels⟩
    | _ => none

/-! ## The toolkit parameters come back -/

section Toolkit

variable (stk : STKParameters)

def STKParameters.value : Bytes :=
  UInt8.ofNat (stk.maxMenuItems % 256).toNat ::
    (lengthPrefixed stk.menuIDPositions ++ lengthPrefixed stk.accessDomain ++
      [stk.priorityLevel, stk.maxTimers, stk.maxMenuEntryLength, stk.maxChannels])

theorem STKParameters.length_value :
    stk.value.length = stk.menuIDPositions.length + stk.accessDomain.length + 7 := by
  simp only [STKParameters.value, length_cons, length_append, length_lengthPrefixed, length_nil]
  omega

variable {stk}

private theorem menuItems_octet (hmenu : 0 ≤ stk.maxMenuItems ∧ stk.maxMenuItems ≤ 255) :
    ((UInt8.ofNat (stk.maxMenuItems % 256).toNat).toNat : ℤ) = stk.maxMenuItems := by
  rw [UInt8.toNat_ofNat']
  omega

/-- **The toolkit parameters are read back** from their value, as far as that has a length. -/
theorem readSTKParameters_value (hmenu : 0 ≤ stk.maxMenuItems ∧ stk.maxMenuItems ≤ 255)
    (hlength : stk.value.length ≤ 255) : readSTKParameters stk.value = some stk := by
  rw [STKParameters.length_value] at hlength
  rw [STKParameters.value, readSTKParameters, append_assoc]
  simp only [readPrefixed_append (show stk.menuIDPositions.length ≤ 255 by omega),
    readPrefixed_append (show stk.accessDomain.length ≤ 255 by omega), Option.bind_eq_bind,
    Option.bind_some, menuItems_octet hmenu]
  rfl

theorem readTagged_build (hlength : stk.value.length ≤ 255) (rest : Bytes) :
    readTagged 0xC9 (stk.build ++ rest) = some (stk.value, rest) :=
  readTagged_append 0xC9 hlength rest

end Toolkit

/-! ## The command comes back -/

section Install

variable (loadFileAID moduleAID appAID : Bytes) (privilege : UInt8)
  (stkParams installParams : Bytes)

def paramsFieldOf : Bytes :=
  if 0 < stkParams.length ∨ 0 < installParams.length then
    0xC9 :: lengthPrefixed (stkParams ++ installParams)
  else []

/-- The data field of the command. -/
def installData : Bytes :=
  lengthPrefixed loadFileAID ++ lengthPrefixed moduleAID ++ lengthPrefixed appAID ++
    [0x01, privilege] ++ lengthPrefixed (paramsFieldOf stkParams installParams) ++ [0x00]

theorem buildInstallForInstallAPDU_eq :
    buildInstallForInstallAPDU loadFileAID moduleAID appAID privilege stkParams installParams
      = buildAPDU insInstall 0x0C 0x00
          (installData loadFileAID moduleAID appAID privilege stkParams installParams) := rfl

theorem length_installData :
    (installData loadFileAID moduleAID appAID privilege stkParams installParams).length
      = loadFileAID.length + moduleAID.length + appAID.length +
        (paramsFieldOf stkParams installParams).length + 7 := by
  simp only [installData, length_cons, length_append, length_lengthPrefixed, length_nil]
  omega

/-- The parameters that the card is to see. -/
def givenParams : Option Bytes :=
  if stkParams = [] ∧ installParams = [] then none else some (stkParams ++ installParams)

variable {stkParams installParams}

theorem paramsFieldOf_eq_nil_iff :
    paramsFieldOf stkParams installParams = [] ↔ stkParams = [] ∧ installParams = [] := by
  rw [paramsFieldOf]
  by_cases hsome : 0 < stkParams.length ∨ 0 < installParams.length
  · rw [if_pos hsome]
    refine iff_of_false (cons_ne_nil _ _) ?_
    rintro ⟨rfl, rfl⟩
    rcases hsome with h | h <;> exact absurd h (Nat.lt_irrefl 0)
  · rw [if_neg hsome]
    rw [not_or, Nat.not_lt, Nat.not_lt, Nat.le_zero, Nat.le_zero, length_eq_zero_iff,
      length_eq_zero_iff] at hsome
    exact iff_of_true rfl hsome

theorem readParams_paramsFieldOf (hlength : (paramsFieldOf stkParams installParams).length ≤ 255) :
    readParams (paramsFieldOf stkParams installParams)
      = some (givenParams stkParams installParams) := by
  rw [readParams, givenParams]
  by_cases hnil : stkParams = [] ∧ installParams = []
  · rw [if_pos (paramsFieldOf_eq_nil_iff.mpr hnil), if_pos hnil]
  · have hfield : paramsFieldOf stkParams installParams
        = 0xC9 :: lengthPrefixed (stkParams ++ installParams) := by
      rw [paramsFieldOf]
      split_ifs with hsome
      · rfl
      · exact absurd (paramsFieldOf_eq_nil_iff.mp (if_neg hsome)) hnil
    have hvalue : (stkParams ++ installParams).length ≤ 255 := by
      rw [hfield, length_cons, length_lengthPrefixed] at hlength
      omega
    have hread := readTagged_append 0xC9 hvalue []
    rw [append_nil] at hread
    rw [if_neg fun h ↦ hnil (paramsFieldOf_eq_nil_iff.mp h), if_neg hnil, hfield, hread]

theorem readInstallData_installData
    (hlength : (installData loadFileAID moduleAID appAID privilege stkParams installParams).length
      ≤ 255) :
    readInstallData (installData loadFileAID moduleAID appAID privilege stkParams installParams)
      = some ⟨loadFileAID, moduleAID, appAID, [privilege], givenParams stkParams installParams, [],
          []⟩ := by
  rw [length_installData] at hlength
  have hprivilege : [0x01, privilege] = lengthPrefixed [privilege] := rfl
  have htoken : ([0x00] : Bytes) = lengthPrefixed [] ++ [] := rfl
  have hparams : (paramsFieldOf stkParams installParams).length ≤ 255 := by omega
  rw [readInstallData, installData, hprivilege, htoken]
  simp only [append_assoc, Option.bind_eq_bind, Option.bind_some,
    readPrefixed_append (show loadFileAID.length ≤ 255 by omega),
    readPrefixed_append (show moduleAID.length ≤ 255 by omega),
    readPrefixed_append (show appAID.length ≤ 255 by omega),
    readPrefixed_append (show [privilege].length ≤ 255 from Nat.le_of_ble_eq_true rfl),
    readPrefixed_append hparams, readPrefixed_append (show ([] : Bytes).length ≤ 255 by decide),
    readParams_paramsFieldOf hparams]
  rfl

theorem readInstall_build
    (hlength : (installData loadFileAID moduleAID appAID privilege stkParams installParams).length
      ≤ 255) :
    readInstall (buildInstallForInstallAPDU loadFileAID moduleAID appAID privilege stkParams
        installParams)
      = some ⟨loadFileAID, moduleAID, appAID, [privilege], givenParams stkParams installParams, [],
          []⟩ := by
  have hlc : (UInt8.ofNat (installData loadFileAID moduleAID appAID privilege stkParams
      installParams).length).toNat
      = (installData loadFileAID moduleAID appAID privilege stkParams installParams).length := by
    rw [UInt8.toNat_ofNat', Nat.mod_eq_of_lt (by omega)]
  rw [buildInstallForInstallAPDU_eq, buildAPDU]
  simp only [cons_append, nil_append, readInstall, hlc, take_length,
    drop_length, readInstallData_installData _ _ _ _ hlength]
  rfl

end Install

/-- The toolkit parameters of a command, if it has any. -/
def stkParamsOf (stk : Option STKParameters) : Bytes := (stk.map STKParameters.build).getD []

/-- **INSTALL [for INSTALL] can be read.** If the data field has at most 255 octets, following the
length octets gives the three identifiers, the privilege, the parameters and an empty token, with
nothing left over. Toolkit parameters begin the parameters, as an object of their own, and their
fields come back from its value. -/
theorem buildInstallForInstallAPDU_readable (loadFileAID moduleAID appAID : Bytes)
    (privilege : UInt8) (stk : Option STKParameters) (installParams : Bytes)
    (hmenu : ∀ settings ∈ stk, 0 ≤ settings.maxMenuItems ∧ settings.maxMenuItems ≤ 255)
    (hfits : (apduData (buildInstallForInstallAPDU loadFileAID moduleAID appAID privilege
      (stkParamsOf stk) installParams)).length ≤ 255) :
    readInstall (buildInstallForInstallAPDU loadFileAID moduleAID appAID privilege
        (stkParamsOf stk) installParams)
      = some { loadFileAID := loadFileAID, moduleAID := moduleAID, appAID := appAID
               privileges := [privilege]
               params := if stkParamsOf stk = [] ∧ installParams = [] then none
                 else some (stkParamsOf stk ++ installParams)
               token := [], leftover := [] } ∧
    ∀ settings ∈ stk, ∃ value,
      readTagged 0xC9 settings.build = some (value, []) ∧
      readTagged 0xC9 (stkParamsOf stk ++ installParams) = some (value, installParams) ∧
      readSTKParameters value = some settings := by
  rw [buildInstallForInstallAPDU_eq, apduData_buildAPDU] at hfits
  refine ⟨readInstall_build loadFileAID moduleAID appAID privilege hfits, ?_⟩
  intro settings hsettings
  obtain rfl : stk = some settings := hsettings
  have hlength : settings.value.length ≤ 255 := by
    have hstk : (stkParamsOf (some settings)).length = settings.value.length + 2 := rfl
    rw [length_installData, paramsFieldOf, if_pos (Or.inl (by omega)), length_cons,
      length_lengthPrefixed, length_append] at hfits
    omega
  refine ⟨settings.value, ?_, readTagged_build hlength installParams,
    readSTKParameters_value (hmenu settings rfl) hlength⟩
  have hread := readTagged_build hlength []
  rwa [append_nil] at hread

/-- A command with toolkit parameters and with parameters of the applet. -/
theorem buildInstallForInstallAPDU_readable_menu :
    readInstall (buildInstallForInstallAPDU [0xA0, 0x01] [0xA0, 0x02] [0xA0, 0x03] 0x04
        (stkParamsOf (some ⟨1, [0x01, 0x02], [0xFF], 1, 8, 32, 2⟩)) [0x2A])
      = some { loadFileAID := [0xA0, 0x01], moduleAID := [0xA0, 0x02], appAID := [0xA0, 0x03]
               privileges := [0x04]
               params := some [0xC9, 10, 1, 2, 1, 2, 1, 0xFF, 1, 8, 32, 2, 0x2A]
               token := [], leftover := [] } :=
  (buildInstallForInstallAPDU_readable [0xA0, 0x01] [0xA0, 0x02] [0xA0, 0x03] 0x04
    (some ⟨1, [0x01, 0x02], [0xFF], 1, 8, 32, 2⟩) [0x2A] (by decide) (by decide)).1

end OtaPlatform
