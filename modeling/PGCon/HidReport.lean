/-
# The reports, as the console reads them

The firmware describes its reports to the console in a report descriptor
(`JoystickReport`): which bits of a report are which button, the hat or an axis. The
reports themselves are copies of a C struct, which the descriptor does not mention.

The console's own software is not at hand; `USB_ProcessHIDReport` and
`USB_GetHIDReportItemInfo` are those of the USB library the firmware is built with, for
the other end of the line. `host_reads`: read by way of the descriptor, every report is
the struct. With that the reports that a console has taken are read in the order of the
calls (`buttons_in_order`). The library's parser needs room for thirty items, and by
default has room for twenty.
-/
import PGCon.Console

namespace PGCon
namespace HidReport

open Effect Firmware Machine Attached Console

/-! ### HIDReportData.h -/

def HID_RI_DATA_SIZE_MASK : BitVec 8 := 0x03
def HID_RI_TYPE_MASK : BitVec 8 := 0x0C
def HID_RI_TAG_MASK : BitVec 8 := 0xF0

def HID_RI_TYPE_MAIN : BitVec 8 := 0x00
def HID_RI_TYPE_GLOBAL : BitVec 8 := 0x04
def HID_RI_TYPE_LOCAL : BitVec 8 := 0x08

def HID_IOF_CONSTANT : BitVec 32 := 1
def HID_IOF_NULLSTATE : BitVec 16 := 1 <<< 6

/-- How much data an item has. -/
inductive DataBits
  | none
  | eight
  | sixteen
  | thirtyTwo

/-- `HID_RI_DATA_BITS`. -/
def DataBits.code : DataBits → BitVec 8
  | .none => 0x00
  | .eight => 0x01
  | .sixteen => 0x02
  | .thirtyTwo => 0x03

def encode8 (data : BitVec 32) : List (BitVec 8) := [data.setWidth 8]

def encode16 (data : BitVec 32) : List (BitVec 8) := encode8 data ++ encode8 (data >>> 8)

/-- `_HID_RI_ENCODE`. -/
def DataBits.encode (data : BitVec 32) : DataBits → List (BitVec 8)
  | .none => []
  | .eight => encode8 data
  | .sixteen => encode16 data
  | .thirtyTwo => encode16 data ++ encode16 (data >>> 16)

/-- `_HID_RI_ENTRY`. -/
def entry (type tag : BitVec 8) (bits : DataBits) (data : BitVec 32) : List (BitVec 8) :=
  (type ||| tag ||| bits.code) :: bits.encode data

def HID_RI_INPUT := entry HID_RI_TYPE_MAIN 0x80
def HID_RI_OUTPUT := entry HID_RI_TYPE_MAIN 0x90
def HID_RI_COLLECTION := entry HID_RI_TYPE_MAIN 0xA0
def HID_RI_END_COLLECTION := entry HID_RI_TYPE_MAIN 0xC0
def HID_RI_USAGE_PAGE := entry HID_RI_TYPE_GLOBAL 0x00
def HID_RI_LOGICAL_MINIMUM := entry HID_RI_TYPE_GLOBAL 0x10
def HID_RI_LOGICAL_MAXIMUM := entry HID_RI_TYPE_GLOBAL 0x20
def HID_RI_PHYSICAL_MINIMUM := entry HID_RI_TYPE_GLOBAL 0x30
def HID_RI_PHYSICAL_MAXIMUM := entry HID_RI_TYPE_GLOBAL 0x40
def HID_RI_UNIT := entry HID_RI_TYPE_GLOBAL 0x60
def HID_RI_REPORT_SIZE := entry HID_RI_TYPE_GLOBAL 0x70
def HID_RI_REPORT_COUNT := entry HID_RI_TYPE_GLOBAL 0x90
def HID_RI_USAGE := entry HID_RI_TYPE_LOCAL 0x00
def HID_RI_USAGE_MINIMUM := entry HID_RI_TYPE_LOCAL 0x10
def HID_RI_USAGE_MAXIMUM := entry HID_RI_TYPE_LOCAL 0x20

/-! ### Descriptors.c -/

def JoystickReport : List (BitVec 8) := List.flatten
  [HID_RI_USAGE_PAGE .eight 1,
    HID_RI_USAGE .eight 5,
    HID_RI_COLLECTION .eight 1,
    HID_RI_LOGICAL_MINIMUM .eight 0,
    HID_RI_LOGICAL_MAXIMUM .eight 1,
    HID_RI_PHYSICAL_MINIMUM .eight 0,
    HID_RI_PHYSICAL_MAXIMUM .eight 1,
    HID_RI_REPORT_SIZE .eight 1,
    HID_RI_REPORT_COUNT .eight 16,
    HID_RI_USAGE_PAGE .eight 9,
    HID_RI_USAGE_MINIMUM .eight 1,
    HID_RI_USAGE_MAXIMUM .eight 16,
    HID_RI_INPUT .eight 2,
    HID_RI_USAGE_PAGE .eight 1,
    HID_RI_LOGICAL_MAXIMUM .eight 7,
    HID_RI_PHYSICAL_MAXIMUM .sixteen 315,
    HID_RI_REPORT_SIZE .eight 4,
    HID_RI_REPORT_COUNT .eight 1,
    HID_RI_UNIT .eight 20,
    HID_RI_USAGE .eight 57,
    HID_RI_INPUT .eight 66,
    HID_RI_UNIT .eight 0,
    HID_RI_REPORT_COUNT .eight 1,
    HID_RI_INPUT .eight 1,
    HID_RI_LOGICAL_MAXIMUM .sixteen 255,
    HID_RI_PHYSICAL_MAXIMUM .sixteen 255,
    HID_RI_USAGE .eight 48,
    HID_RI_USAGE .eight 49,
    HID_RI_USAGE .eight 50,
    HID_RI_USAGE .eight 53,
    HID_RI_REPORT_SIZE .eight 8,
    HID_RI_REPORT_COUNT .eight 4,
    HID_RI_INPUT .eight 2,
    HID_RI_USAGE_PAGE .sixteen 65280,
    HID_RI_USAGE .eight 32,
    HID_RI_REPORT_COUNT .eight 1,
    HID_RI_INPUT .eight 2,
    HID_RI_USAGE .sixteen 9761,
    HID_RI_REPORT_COUNT .eight 8,
    HID_RI_OUTPUT .eight 2,
    HID_RI_END_COLLECTION .none 0]

/-! ### HIDParser.h -/

/-- `HID_MinMax_t`. -/
structure MinMax where
  Minimum : BitVec 32
  Maximum : BitVec 32
  deriving DecidableEq, Repr

/-- `HID_Unit_t`. -/
structure HidUnit where
  type : BitVec 32
  Exponent : BitVec 8
  deriving DecidableEq, Repr

/-- `HID_Usage_t`. -/
structure HidUsage where
  Page : BitVec 16
  Usage : BitVec 16
  deriving DecidableEq, Repr

/-- `HID_CollectionPath_t`; the parent is an index. -/
structure CollectionPath where
  type : BitVec 8
  Usage : HidUsage
  Parent : Option ℕ
  deriving DecidableEq, Repr

/-- `HID_ReportItem_Attributes_t`. -/
structure Attributes where
  BitSize : BitVec 8
  Usage : HidUsage
  Unit : HidUnit
  Logical : MinMax
  Physical : MinMax
  deriving DecidableEq, Repr

/-- `HID_ReportItemTypes_t`. -/
inductive ItemType
  | In
  | Out
  | Feature
  deriving DecidableEq, Repr

/-- `HID_ReportItem_t`, without the values read last. -/
structure ReportItem where
  BitOffset : BitVec 16
  ItemType : ItemType
  ItemFlags : BitVec 16
  ReportID : BitVec 8
  CollectionPath : Option ℕ
  Attributes : Attributes
  deriving DecidableEq, Repr

/-- `HID_ReportSizeInfo_t`. -/
structure ReportSizeInfo where
  ReportID : BitVec 8
  ReportSizeBits : ItemType → BitVec 16

/-- `HID_ReportInfo_t`: the lists have as many entries as are in use, the collections
`HID_MAX_COLLECTIONS`. -/
structure ReportInfo where
  ReportItems : List ReportItem
  CollectionPaths : List CollectionPath
  ReportIDSizes : List ReportSizeInfo
  LargestReportSizeBits : BitVec 16
  UsingReportIDs : Bool

/-- `HID_StateTable_t`. -/
structure StateTable where
  Attributes : Attributes
  ReportCount : BitVec 8
  ReportID : BitVec 8
  deriving DecidableEq, Repr

/-- `HID_PARSE_…`, and reading past the end of the descriptor. -/
inductive ParseError
  | HIDStackOverflow
  | HIDStackUnderflow
  | InsufficientReportItems
  | UnexpectedEndCollection
  | InsufficientCollectionPaths
  | UsageListOverflow
  | InsufficientReportIDItems
  | NoUnfilteredReportItems
  | overrun
  deriving DecidableEq, Repr

def HID_STATETABLE_STACK_DEPTH : ℕ := 2
def HID_USAGE_STACK_DEPTH : ℕ := 8
def HID_MAX_COLLECTIONS : ℕ := 10
def HID_MAX_REPORT_IDS : ℕ := 10

/-! ### HIDParser.c -/

/-- The variables of `USB_ProcessHIDReport`. -/
structure Parser where
  /-- the tables below the current one, the nearest first -/
  below : List StateTable
  table : StateTable
  CurrCollectionPath : Option ℕ
  CurrReportIDInfo : ℕ
  UsageList : List (BitVec 16)
  UsageMinMax : MinMax
  ParserData : ReportInfo

namespace Parser

variable (p : Parser)

/-- A change of the current attributes. -/
def setAttributes (f : Attributes → Attributes) : Parser :=
  { p with table := { p.table with Attributes := f p.table.Attributes } }

/-- The next usage, from the list or else the range. -/
def takeUsage : Option (BitVec 16) × Parser :=
  match p.UsageList with
  | usage :: rest => (some usage, { p with UsageList := rest })
  | [] =>
    if p.UsageMinMax.Minimum ≤ p.UsageMinMax.Maximum then
      (some (p.UsageMinMax.Minimum.setWidth 16),
        { p with UsageMinMax := { p.UsageMinMax with Minimum := p.UsageMinMax.Minimum + 1 } })
    else (none, p)

def push : Except ParseError Parser :=
  if p.below.length = HID_STATETABLE_STACK_DEPTH - 1 then .error .HIDStackOverflow
  else .ok { p with below := p.table :: p.below }

def pop : Except ParseError Parser :=
  match p.below with
  | [] => .error .HIDStackUnderflow
  | table :: below => .ok { p with below := below, table := table }

/-- `HID_RI_REPORT_ID`: its entry is looked for, or a new one begun, once the first
identifier has taken the entry there was. -/
def reportID (id : BitVec 8) : Except ParseError Parser :=
  let p := { p with table := { p.table with ReportID := id } }
  let d := p.ParserData
  let named (i : ℕ) (sizes : List ReportSizeInfo) : Parser :=
    { p with
      CurrReportIDInfo := i
      ParserData := { d with
        UsingReportIDs := true
        ReportIDSizes := sizes.modify i fun info => { info with ReportID := id } } }
  if d.UsingReportIDs then
    match d.ReportIDSizes.findIdx? fun info => info.ReportID = id with
    | some i => .ok (named i d.ReportIDSizes)
    | none =>
      if d.ReportIDSizes.length = HID_MAX_REPORT_IDS then .error .InsufficientReportIDItems
      else .ok (named d.ReportIDSizes.length (d.ReportIDSizes ++ [⟨0, fun _ => 0⟩]))
  else .ok (named p.CurrReportIDInfo d.ReportIDSizes)

def usage (data : BitVec 16) : Except ParseError Parser :=
  if p.UsageList.length = HID_USAGE_STACK_DEPTH then .error .UsageListOverflow
  else .ok { p with UsageList := p.UsageList ++ [data] }

/-- Where a collection goes, and its parent: the first at index 0, the others after it
where there is no parent yet. -/
def collectionPlace : Except ParseError (ℕ × Option ℕ) :=
  match p.CurrCollectionPath with
  | none => .ok (0, (p.ParserData.CollectionPaths[0]?).bind CollectionPath.Parent)
  | some parent =>
    match (List.range' 1 (HID_MAX_COLLECTIONS - 1)).find? fun i =>
      (p.ParserData.CollectionPaths[i]?).bind CollectionPath.Parent = none with
    | some i => .ok (i, some parent)
    | none => .error .InsufficientCollectionPaths

def collection (data : BitVec 32) : Except ParseError Parser := do
  let (i, parent) ← p.collectionPlace
  let (usage, p) := p.takeUsage
  return { p with
    CurrCollectionPath := some i
    ParserData := { p.ParserData with
      CollectionPaths := p.ParserData.CollectionPaths.modify i fun path =>
        ⟨data.setWidth 8, ⟨p.table.Attributes.Usage.Page, usage.getD path.Usage.Usage⟩, parent⟩ } }

def endCollection : Except ParseError Parser :=
  match p.CurrCollectionPath with
  | none => .error .UnexpectedEndCollection
  | some i => .ok { p with CurrCollectionPath := (p.ParserData.CollectionPaths[i]?).bind CollectionPath.Parent }

/-- How many bits a kind of report has so far. -/
def sizeBits (type : ItemType) : BitVec 16 :=
  ((p.ParserData.ReportIDSizes[p.CurrReportIDInfo]?).map fun info => info.ReportSizeBits type).getD 0

variable (HID_MAX_REPORTITEMS : ℕ) (filter : ReportItem → Bool)

/-- A turn of the loop over the items of an `INPUT`, `OUTPUT` or `FEATURE`. -/
def reportItem (type : ItemType) (data : BitVec 32) : Except ParseError Parser :=
  let (usage, p) := p.takeUsage
  let attributes := p.table.Attributes
  let item : ReportItem :=
    { BitOffset := p.sizeBits type
      ItemType := type
      ItemFlags := data.setWidth 16
      ReportID := p.table.ReportID
      CollectionPath := p.CurrCollectionPath
      Attributes := { attributes with Usage := { attributes.Usage with Usage := usage.getD attributes.Usage.Usage } } }
  let size := p.sizeBits type + attributes.BitSize.setWidth 16
  let d := p.ParserData
  if d.ReportItems.length = HID_MAX_REPORTITEMS then .error .InsufficientReportItems
  else .ok { p with
    ParserData := { d with
      ReportIDSizes := d.ReportIDSizes.modify p.CurrReportIDInfo fun info =>
        { info with ReportSizeBits := Function.update info.ReportSizeBits type size }
      LargestReportSizeBits := if d.LargestReportSizeBits < size then size else d.LargestReportSizeBits
      ReportItems := if data &&& HID_IOF_CONSTANT = 0 ∧ filter item then d.ReportItems ++ [item] else d.ReportItems } }

def reportItems (type : ItemType) (data : BitVec 32) : Except ParseError Parser :=
  (List.range p.table.ReportCount.toNat).foldlM
    (fun p _ => p.reportItem HID_MAX_REPORTITEMS filter type data) p

/-- The switch over the tag and type of an item. -/
def switch (tag : BitVec 8) (data : BitVec 32) : Except ParseError Parser :=
  match tag.toNat with
  | 0xA4 => p.push
  | 0xB4 => p.pop
  | 0x04 => .ok (p.setAttributes fun a => { a with Usage := { a.Usage with Page := data.setWidth 16 } })
  | 0x14 => .ok (p.setAttributes fun a => { a with Logical := { a.Logical with Minimum := data } })
  | 0x24 => .ok (p.setAttributes fun a => { a with Logical := { a.Logical with Maximum := data } })
  | 0x34 => .ok (p.setAttributes fun a => { a with Physical := { a.Physical with Minimum := data } })
  | 0x44 => .ok (p.setAttributes fun a => { a with Physical := { a.Physical with Maximum := data } })
  | 0x54 => .ok (p.setAttributes fun a => { a with Unit := { a.Unit with Exponent := data.setWidth 8 } })
  | 0x64 => .ok (p.setAttributes fun a => { a with Unit := { a.Unit with type := data } })
  | 0x74 => .ok (p.setAttributes fun a => { a with BitSize := data.setWidth 8 })
  | 0x94 => .ok { p with table := { p.table with ReportCount := data.setWidth 8 } }
  | 0x84 => p.reportID (data.setWidth 8)
  | 0x08 => p.usage (data.setWidth 16)
  | 0x18 => .ok { p with UsageMinMax := { p.UsageMinMax with Minimum := data } }
  | 0x28 => .ok { p with UsageMinMax := { p.UsageMinMax with Maximum := data } }
  | 0xA0 => p.collection data
  | 0xC0 => p.endCollection
  | 0x80 => p.reportItems HID_MAX_REPORTITEMS filter .In data
  | 0x90 => p.reportItems HID_MAX_REPORTITEMS filter .Out data
  | 0xB0 => p.reportItems HID_MAX_REPORTITEMS filter .Feature data
  | _ => .ok p

/-- An item: after one of the main type the usages are forgotten. -/
def item (HIDReportItem : BitVec 8) (data : BitVec 32) : Except ParseError Parser := do
  let p ← p.switch HID_MAX_REPORTITEMS filter (HIDReportItem &&& (HID_RI_TYPE_MASK ||| HID_RI_TAG_MASK)) data
  if HIDReportItem &&& HID_RI_TYPE_MASK = HID_RI_TYPE_MAIN then
    return { p with UsageMinMax := ⟨0, 0⟩, UsageList := [] }
  else return p

end Parser

section Process

variable (HID_MAX_REPORTITEMS : ℕ) (filter : ReportItem → Bool)

/-- The loop over the items. -/
def processItems : List (BitVec 8) → Parser → Except ParseError Parser
  | [], p => .ok p
  | i :: rest, p =>
    match (i &&& HID_RI_DATA_SIZE_MASK).toNat, rest with
    | 0, rest => do processItems rest (← p.item HID_MAX_REPORTITEMS filter i 0)
    | 1, a :: rest => do processItems rest (← p.item HID_MAX_REPORTITEMS filter i (a.setWidth 32))
    | 2, a :: b :: rest => do processItems rest (← p.item HID_MAX_REPORTITEMS filter i ((b ++ a).setWidth 32))
    | 3, a :: b :: c :: d :: rest => do processItems rest (← p.item HID_MAX_REPORTITEMS filter i (d ++ c ++ b ++ a))
    | _, _ => .error .overrun

/-- The variables at first. -/
def Parser.init : Parser where
  below := []
  table := ⟨⟨0, ⟨0, 0⟩, ⟨0, 0⟩, ⟨0, 0⟩, ⟨0, 0⟩⟩, 0, 0⟩
  CurrCollectionPath := none
  CurrReportIDInfo := 0
  UsageList := []
  UsageMinMax := ⟨0, 0⟩
  ParserData := ⟨[], List.replicate HID_MAX_COLLECTIONS ⟨0, ⟨0, 0⟩, none⟩, [⟨0, fun _ => 0⟩], 0, false⟩

/-- `USB_ProcessHIDReport`. -/
def USB_ProcessHIDReport (ReportData : List (BitVec 8)) : Except ParseError ReportInfo := do
  let p ← processItems HID_MAX_REPORTITEMS filter ReportData Parser.init
  if p.ParserData.ReportItems = [] then throw .NoUnfilteredReportItems
  return p.ParserData

end Process

/-- A bit of a report. -/
def bitAt (report : List (BitVec 8)) (i : ℕ) : Bool := (report.getD (i / 8) 0).getLsbD (i % 8)

/-- The loop of `USB_GetHIDReportItemInfo`. -/
def valueAt (report : List (BitVec 8)) (offset size : ℕ) : BitVec 32 :=
  (List.range size).foldl (fun value i => if bitAt report (offset + i) then value ||| (1#32 <<< i) else value) 0

/-- `USB_GetHIDReportItemInfo`: the value of an item, if the report is the item's. -/
def USB_GetHIDReportItemInfo (ReportData : List (BitVec 8)) (item : ReportItem) : Option (BitVec 32) :=
  if item.ReportID ≠ 0 then
    if ReportData.head? = some item.ReportID then
      some (valueAt ReportData.tail item.BitOffset.toNat item.Attributes.BitSize.toNat)
    else none
  else some (valueAt ReportData item.BitOffset.toNat item.Attributes.BitSize.toNat)

/-- `USB_GetHIDReportSize`, in bytes. -/
def USB_GetHIDReportSize (info : ReportInfo) (ReportID : BitVec 8) (type : ItemType) : ℕ :=
  match info.ReportIDSizes.find? fun sizes => sizes.ReportID = ReportID with
  | none => 0
  | some sizes => (sizes.ReportSizeBits type).toNat / 8 + if (sizes.ReportSizeBits type).toNat % 8 ≠ 0 then 1 else 0

/-! ### Room for the items -/

variable {n n' : ℕ} {filter : ReportItem → Bool} {p p' : Parser}

/-- There is room for the items so far. -/
def Fits (n : ℕ) (p : Parser) : Prop := p.ParserData.ReportItems.length ≤ n

theorem takeUsage_data (p : Parser) : p.takeUsage.2.ParserData = p.ParserData := by
  unfold Parser.takeUsage
  split
  · rfl
  · split <;> rfl

/-- More room makes no difference. -/
theorem reportItem_room (hn : n ≤ n') (hp : Fits n p) {type : ItemType} {data : BitVec 32}
    (h : p.reportItem n filter type data = .ok p') : p.reportItem n' filter type data = .ok p' ∧ Fits n p' := by
  unfold Parser.reportItem at h ⊢
  dsimp only at h ⊢
  rw [Fits, ← takeUsage_data p] at hp
  split at h
  · cases h
  · rename_i hne
    rw [if_neg (by omega)]
    obtain rfl := Except.ok.inj h
    refine ⟨rfl, ?_⟩
    unfold Fits
    dsimp only
    split
    · rw [List.length_append, List.length_singleton]
      omega
    · exact hp

theorem foldlM_room {α : Type} {f : ℕ → Parser → α → Except ParseError Parser}
    (hf : ∀ p a p', Fits n p → f n p a = .ok p' → f n' p a = .ok p' ∧ Fits n p') :
    ∀ (as : List α) {p p' : Parser}, Fits n p → as.foldlM (f n) p = .ok p' →
      as.foldlM (f n') p = .ok p' ∧ Fits n p'
  | [], p, p', hp, h => by
    obtain rfl := Except.ok.inj h
    exact ⟨rfl, hp⟩
  | a :: as, p, p', hp, h => by
    rw [List.foldlM_cons] at h ⊢
    obtain ⟨p₁, h₁, h⟩ := Effect.bind_eq_ok.mp h
    obtain ⟨h₁', hp₁⟩ := hf p a p₁ hp h₁
    rw [h₁']
    exact foldlM_room hf as hp₁ h

theorem reportItems_room (hn : n ≤ n') (hp : Fits n p) {type : ItemType} {data : BitVec 32}
    (h : p.reportItems n filter type data = .ok p') : p.reportItems n' filter type data = .ok p' ∧ Fits n p' :=
  foldlM_room (f := fun n p _ => p.reportItem n filter type data) (fun _ _ _ hp h => reportItem_room hn hp h) _ hp h

/-- Only the items of reports take room. -/
theorem fits_reportID (hp : Fits n p) {id : BitVec 8} (h : p.reportID id = .ok p') : Fits n p' := by
  unfold Parser.reportID at h
  dsimp only at h
  split at h
  · split at h
    · obtain rfl := Except.ok.inj h
      exact hp
    · split at h
      · cases h
      · obtain rfl := Except.ok.inj h
        exact hp
  · obtain rfl := Except.ok.inj h
    exact hp

theorem fits_collection (hp : Fits n p) {data : BitVec 32} (h : p.collection data = .ok p') : Fits n p' := by
  obtain ⟨⟨i, parent⟩, -, h⟩ := Effect.bind_eq_ok.mp h
  obtain rfl := Except.ok.inj h
  show p.takeUsage.2.ParserData.ReportItems.length ≤ n
  rw [takeUsage_data]
  exact hp

theorem switch_room (hn : n ≤ n') (hp : Fits n p) {tag : BitVec 8} {data : BitVec 32}
    (h : p.switch n filter tag data = .ok p') : p.switch n' filter tag data = .ok p' ∧ Fits n p' := by
  unfold Parser.switch at h ⊢
  split at h
  case h_12 => exact ⟨h, fits_reportID hp h⟩
  case h_16 => exact ⟨h, fits_collection hp h⟩
  case h_18 | h_19 | h_20 => exact reportItems_room hn hp h
  -- what can fail and has nothing to do with the items
  case h_1 | h_2 | h_13 | h_17 =>
    refine ⟨h, ?_⟩
    simp only [Parser.push, Parser.pop, Parser.usage, Parser.endCollection] at h
    split at h
    · cases h
    · obtain rfl := Except.ok.inj h
      exact hp
  all_goals
    obtain rfl := Except.ok.inj h
    exact ⟨rfl, hp⟩

theorem item_room (hn : n ≤ n') (hp : Fits n p) {i : BitVec 8} {data : BitVec 32}
    (h : p.item n filter i data = .ok p') : p.item n' filter i data = .ok p' ∧ Fits n p' := by
  obtain ⟨p₁, h₁, h⟩ := Effect.bind_eq_ok.mp h
  obtain ⟨h₁', hp₁⟩ := switch_room hn hp h₁
  refine ⟨Effect.bind_eq_ok.mpr ⟨p₁, h₁', h⟩, ?_⟩
  split at h
  · obtain rfl := Except.ok.inj h
    exact hp₁
  · obtain rfl := Except.ok.inj h
    exact hp₁

theorem processItems_room (hn : n ≤ n') (bytes : List (BitVec 8)) (p : Parser) (hp : Fits n p)
    (h : processItems n filter bytes p = .ok p') : processItems n' filter bytes p = .ok p' := by
  have hitem : ∀ {q : Parser} {rest : List (BitVec 8)} {i : BitVec 8} {data : BitVec 32}, Fits n q →
      (∀ q', Fits n q' → processItems n filter rest q' = .ok p' → processItems n' filter rest q' = .ok p') →
      (q.item n filter i data >>= processItems n filter rest) = .ok p' →
      (q.item n' filter i data >>= processItems n' filter rest) = .ok p' := by
    intro q rest i data hq ih h
    obtain ⟨q', hq', h⟩ := Effect.bind_eq_ok.mp h
    obtain ⟨hq'', hfits⟩ := item_room hn hq hq'
    exact Effect.bind_eq_ok.mpr ⟨q', hq'', ih q' hfits h⟩
  fun_induction processItems n filter bytes p with
  | case1 p => exact h
  | case2 i p rest hsize ih | case3 i p a rest hsize ih | case4 i p a b rest hsize ih
  | case5 i p a b c d rest hsize ih =>
    unfold processItems
    rw [hsize]
    exact hitem hp ih h
  | case6 => cases h

/-! ### Values -/

theorem getLsbD_one_shiftLeft (i : ℕ) {j : ℕ} (hj : j < 32) : (1#32 <<< i).getLsbD j = decide (j = i) := by
  rw [BitVec.getLsbD_shiftLeft, BitVec.getLsbD_one]
  rcases Nat.lt_trichotomy j i with h | rfl | h
  · simp [h, h.ne]
  · simp [hj]
  · simp [h.ne', Nat.sub_ne_zero_of_lt h]

/-- The loop sets the bits it finds. -/
theorem getLsbD_valueAt (report : List (BitVec 8)) (offset size : ℕ) {j : ℕ} (hj : j < 32) :
    (valueAt report offset size).getLsbD j = (decide (j < size) && bitAt report (offset + j)) := by
  unfold valueAt
  induction size with
  | zero => simp
  | succ size ih =>
    rw [List.range_succ, List.foldl_append, List.foldl_cons, List.foldl_nil]
    have hlt : j ≠ size → (j < size + 1 ↔ j < size) := fun hne => by omega
    split
    · rename_i hbit
      rw [BitVec.getLsbD_or, getLsbD_one_shiftLeft size hj, ih]
      rcases eq_or_ne j size with rfl | hne
      · simp [hbit]
      · simp [hne, hlt hne]
    · rename_i hbit
      rw [ih]
      rcases eq_or_ne j size with rfl | hne
      · simp [hbit]
      · simp [hlt hne]

/-- A field that lies in a report as these bits has their value. -/
theorem valueAt_eq {report : List (BitVec 8)} {offset w : ℕ} {b : BitVec w}
    (h : ∀ j < w, bitAt report (offset + j) = b.getLsbD j) : valueAt report offset w = b.setWidth 32 := by
  apply BitVec.eq_of_getLsbD_eq
  intro j hj
  rw [getLsbD_valueAt report offset w hj, BitVec.getLsbD_setWidth]
  by_cases hjw : j < w
  · simp [hjw, hj, h j hjw]
  · simp [hjw, BitVec.getLsbD_of_ge b j (by omega)]

/-- A bit of a byte. -/
theorem bitAt_byte (report : List (BitVec 8)) (k : ℕ) {j : ℕ} (hj : j < 8) :
    bitAt report (8 * k + j) = (report.getD k 0).getLsbD j := by
  unfold bitAt
  rw [Nat.mul_add_div (by decide), Nat.div_eq_of_lt hj, Nat.add_zero, Nat.mul_add_mod, Nat.mod_eq_of_lt hj]

/-- A byte of its own. -/
theorem valueAt_byte (report : List (BitVec 8)) (k : ℕ) :
    valueAt report (8 * k) 8 = (report.getD k 0).setWidth 32 :=
  valueAt_eq fun _ hj => bitAt_byte report k hj

/-! ### What the console reads -/

def GENERIC_DESKTOP : BitVec 16 := 1
def BUTTON : BitVec 16 := 9
def HAT_SWITCH : BitVec 16 := 57
def X : BitVec 16 := 48
def Y : BitVec 16 := 49
def Z : BitVec 16 := 50
def RZ : BitVec 16 := 53

/-- What a report says of a usage. An item with a null state says nothing by a value out of
its range. -/
def reading (info : ReportInfo) (report : List (BitVec 8)) (page usage : BitVec 16) : Option (BitVec 32) := do
  let item ← info.ReportItems.find? fun item => item.ItemType = .In ∧ item.Attributes.Usage = ⟨page, usage⟩
  let value ← USB_GetHIDReportItemInfo report item
  if item.ItemFlags &&& HID_IOF_NULLSTATE ≠ 0 ∧
      ¬(item.Attributes.Logical.Minimum ≤ value ∧ value ≤ item.Attributes.Logical.Maximum) then none
  else return value

/-- Where a report has a usage, and the range if there is a null state. -/
structure Field where
  offset : ℕ
  size : ℕ
  range : Option MinMax
  deriving DecidableEq, Repr

/-- The field of a usage. -/
def field (info : ReportInfo) (page usage : BitVec 16) : Option Field :=
  (info.ReportItems.find? fun item => item.ItemType = .In ∧ item.Attributes.Usage = ⟨page, usage⟩).bind fun item =>
    if item.ReportID ≠ 0 then none
    else some ⟨item.BitOffset.toNat, item.Attributes.BitSize.toNat,
      if item.ItemFlags &&& HID_IOF_NULLSTATE ≠ 0 then some item.Attributes.Logical else none⟩

/-- What a field says. -/
def Field.reading (f : Field) (report : List (BitVec 8)) : Option (BitVec 32) :=
  let value := valueAt report f.offset f.size
  match f.range with
  | none => some value
  | some range => if range.Minimum ≤ value ∧ value ≤ range.Maximum then some value else none

theorem reading_of_field {info : ReportInfo} {page usage : BitVec 16} {f : Field} (h : field info page usage = some f)
    (report : List (BitVec 8)) : reading info report page usage = f.reading report := by
  obtain ⟨item, hitem, h⟩ := Option.bind_eq_some_iff.mp h
  split at h
  · cases h
  · rename_i hid
    obtain rfl := Option.some.inj h
    have hvalue : USB_GetHIDReportItemInfo report item =
        some (valueAt report item.BitOffset.toNat item.Attributes.BitSize.toNat) := if_neg hid
    unfold reading Field.reading
    rw [hitem]
    dsimp only [bind, Option.bind_some]
    rw [hvalue, Option.bind_some]
    by_cases hnull : item.ItemFlags &&& HID_IOF_NULLSTATE ≠ 0
    · rw [if_pos hnull]
      dsimp only
      split
      · rename_i hout
        rw [if_neg hout.2]
      · rename_i hin
        rw [if_pos (not_not.mp fun hout => hin ⟨hnull, hout⟩)]
        rfl
    · rw [if_neg hnull, if_neg fun hout => hnull hout.1]
      rfl

/-- The fields of the struct. -/
def layout : List (BitVec 16 × BitVec 16 × Field) :=
  (List.range 16).map (fun i => (BUTTON, BitVec.ofNat 16 (i + 1), ⟨i, 1, none⟩)) ++
    [(GENERIC_DESKTOP, HAT_SWITCH, ⟨16, 4, some ⟨0, 7⟩⟩), (GENERIC_DESKTOP, X, ⟨24, 8, none⟩),
      (GENERIC_DESKTOP, Y, ⟨32, 8, none⟩), (GENERIC_DESKTOP, Z, ⟨40, 8, none⟩), (GENERIC_DESKTOP, RZ, ⟨48, 8, none⟩)]

/-- The descriptor describes the struct. -/
def Describes (info : ReportInfo) : Prop :=
  (∀ entry ∈ layout, field info entry.1 entry.2.1 = some entry.2.2) ∧ USB_GetHIDReportSize info 0 .In = 8

instance (info : ReportInfo) : Decidable (Describes info) := inferInstanceAs (Decidable (_ ∧ _))

theorem describes_thirty : (USB_ProcessHIDReport 30 (fun _ => true) JoystickReport).toOption.map
    (fun info => decide (Describes info)) = some true := by
  decide +kernel

theorem refused_twentyNine : (USB_ProcessHIDReport 29 (fun _ => true) JoystickReport).toOption.isNone = true := by
  decide +kernel

theorem process_room (hn : n ≤ n') {bytes : List (BitVec 8)} {info : ReportInfo}
    (h : USB_ProcessHIDReport n filter bytes = .ok info) : USB_ProcessHIDReport n' filter bytes = .ok info := by
  obtain ⟨p, hp, h⟩ := Effect.bind_eq_ok.mp h
  exact Effect.bind_eq_ok.mpr ⟨p, processItems_room hn bytes Parser.init (Nat.zero_le n) hp, h⟩

/-- `Button` is the first two bytes, the low one first. -/
theorem bitAt_button (vc : VirtualController) {i : ℕ} (hi : i < 16) : bitAt (wire vc) i = vc.Button.getLsbD i := by
  rcases Nat.lt_or_ge i 8 with hlt | hge
  · have hbyte := bitAt_byte (wire vc) 0 hlt
    rw [Nat.mul_zero, Nat.zero_add] at hbyte
    rw [hbyte]
    simp [wire, hlt]
  · obtain ⟨j, rfl⟩ := Nat.exists_eq_add_of_le hge
    have hj : j < 8 := by omega
    have hbyte := bitAt_byte (wire vc) 1 hj
    rw [Nat.mul_one] at hbyte
    rw [hbyte]
    simp [wire, hj]

theorem in_range : ∀ hat : BitVec 4, 0#32 ≤ hat.setWidth 32 ∧ hat.setWidth 32 ≤ 7#32 ↔ hat ≤ 7#4 := by decide

section Fields

variable {info : ReportInfo} (h : Describes info) (vc : VirtualController)

include h

theorem Describes.button {i : ℕ} (hi : i < 16) : reading info (wire vc) BUTTON (BitVec.ofNat 16 (i + 1)) =
    some ((BitVec.ofBool (vc.Button.getLsbD i)).setWidth 32) := by
  have hfield : field info BUTTON (BitVec.ofNat 16 (i + 1)) = some ⟨i, 1, none⟩ :=
    h.1 (BUTTON, BitVec.ofNat 16 (i + 1), ⟨i, 1, none⟩)
      (List.mem_append_left _ (List.mem_map.mpr ⟨i, List.mem_range.mpr hi, rfl⟩))
  rw [reading_of_field hfield]
  refine congrArg some (valueAt_eq fun j hj => ?_)
  obtain rfl : j = 0 := Nat.lt_one_iff.mp hj
  rw [Nat.add_zero, bitAt_button vc hi]
  simp

/-- A byte that is an axis. -/
theorem Describes.axis (k : ℕ) {usage : BitVec 16} (hk : (GENERIC_DESKTOP, usage, ⟨8 * k, 8, none⟩) ∈ layout) :
    reading info (wire vc) GENERIC_DESKTOP usage = some (((wire vc).getD k 0).setWidth 32) := by
  rw [reading_of_field (h.1 _ hk)]
  exact congrArg some (valueAt_byte (wire vc) k)

theorem Describes.hat : reading info (wire vc) GENERIC_DESKTOP HAT_SWITCH =
    if vc.HAT.setWidth 4 ≤ 7 then some ((vc.HAT.setWidth 4).setWidth 32) else none := by
  have hvalue : valueAt (wire vc) 16 4 = (vc.HAT.setWidth 4).setWidth 32 := by
    refine valueAt_eq fun j hj => ?_
    rw [bitAt_byte (wire vc) 2 (by omega), BitVec.getLsbD_setWidth]
    simp [hj, wire]
  rw [reading_of_field (h.1 (GENERIC_DESKTOP, HAT_SWITCH, ⟨16, 4, some ⟨0, 7⟩⟩) (by decide))]
  unfold Field.reading
  dsimp only
  rw [hvalue]
  exact if_congr (in_range (vc.HAT.setWidth 4)) rfl rfl

end Fields

/-- The library's parser takes the descriptor exactly if it has room for thirty items, and
then finds the fields of the struct. -/
theorem exists_described : ∃ info, Describes info ∧
    ∀ n, USB_ProcessHIDReport n (fun _ => true) JoystickReport = .ok info ↔ 30 ≤ n := by
  obtain ⟨info, hinfo, hdescribes⟩ := Option.map_eq_some_iff.mp describes_thirty
  refine ⟨info, of_decide_eq_true hdescribes, fun n => ⟨fun h => ?_, fun hn => ?_⟩⟩
  · by_contra hn
    have h29 := process_room (Nat.le_of_lt_succ (Nat.not_le.mp hn)) h
    have hnone := refused_twentyNine
    rw [h29] at hnone
    cases hnone
  · refine process_room hn ?_
    cases hp : USB_ProcessHIDReport 30 (fun _ => true) JoystickReport with
    | error e =>
      rw [hp] at hinfo
      cases hinfo
    | ok info' =>
      rw [hp] at hinfo
      rw [Option.some.inj hinfo]

/-- Read by way of the descriptor, every report is the struct: each bit of `Button` a
button, `HAT` the hat, which is centred by every value above seven, and the axes the axes. -/
theorem host_reads : ∃ info, (∀ n, USB_ProcessHIDReport n (fun _ => true) JoystickReport = .ok info ↔ 30 ≤ n) ∧
    ∀ vc : VirtualController, USB_GetHIDReportSize info 0 .In = (wire vc).length ∧
      (∀ i < 16, reading info (wire vc) BUTTON (BitVec.ofNat 16 (i + 1)) =
        some ((BitVec.ofBool (vc.Button.getLsbD i)).setWidth 32)) ∧
      reading info (wire vc) GENERIC_DESKTOP HAT_SWITCH =
        (if vc.HAT.setWidth 4 ≤ 7 then some ((vc.HAT.setWidth 4).setWidth 32) else none) ∧
      reading info (wire vc) GENERIC_DESKTOP X = some (vc.LX.setWidth 32) ∧
      reading info (wire vc) GENERIC_DESKTOP Y = some (vc.LY.setWidth 32) ∧
      reading info (wire vc) GENERIC_DESKTOP Z = some (vc.RX.setWidth 32) ∧
      reading info (wire vc) GENERIC_DESKTOP RZ = some (vc.RY.setWidth 32) := by
  obtain ⟨info, hdescribes, hroom⟩ := exists_described
  exact ⟨info, hroom, fun vc => ⟨hdescribes.2, fun i hi => hdescribes.button vc hi, hdescribes.hat vc,
    hdescribes.axis vc 3 (by decide), hdescribes.axis vc 4 (by decide), hdescribes.axis vc 5 (by decide),
    hdescribes.axis vc 6 (by decide)⟩⟩

/-! ### The reports a console has taken -/

section Taken

variable {O : Type} [Stick O]

/-- The number of the button's bit. -/
def bitOf (b : Button) : ℕ := Nat.log2 b.mask.toNat

/-- The report says which buttons of the pad are held and where its hat is. -/
structure Reads (info : ReportInfo) (report : List (BitVec 8)) (pad : Pad O) : Prop where
  buttons : ∀ b, NonHat b → reading info report BUTTON (BitVec.ofNat 16 (bitOf b + 1)) = some (if pad.held b then 1 else 0)
  hat : reading info report GENERIC_DESKTOP HAT_SWITCH = pad.hat.map NintendoSwitchStandardButton.commandEasyCon

theorem bitOf_lt : ∀ b : Button, bitOf b < 16 := by decide

theorem mask_bit : ∀ b c : Button, NonHat b → NonHat c → (c.mask.getLsbD (bitOf b) = true ↔ c = b) := by decide

/-- A hat direction in four bits. -/
theorem hat_bits : ∀ b : Button, b.isHat = true → (hatByte (some b)).setWidth 4 ≤ 7 ∧
    ((hatByte (some b)).setWidth 4).setWidth 32 = b.commandEasyCon := by decide

theorem extract_low (high low : BitVec 8) : (high ++ low : BitVec (8 + 8)).extractLsb' 0 8 = low := by
  ext i hi
  rw [BitVec.getElem_extractLsb', BitVec.getLsbD_append]
  simp [hi]

theorem extract_high (high low : BitVec 8) : (high ++ low : BitVec (8 + 8)).extractLsb' 8 8 = high := by
  ext i hi
  rw [BitVec.getElem_extractLsb', BitVec.getLsbD_append]
  simp [hi]

theorem wire_of_decode {report : List (BitVec 8)} {vc : VirtualController} (h : decode report = some vc) :
    report = wire vc := by
  unfold decode at h
  split at h
  · obtain rfl := Option.some.inj h
    rename_i low high _ _ _ _ _ _
    have hlow : (high ++ low).extractLsb' 0 8 = low := extract_low high low
    have hhigh : (high ++ low).extractLsb' 8 8 = high := extract_high high low
    rw [wire, hlow, hhigh]
  · cases h

/-- The hat is only ever put to a direction. -/
theorem isHat_replay (calls : List (Call O)) : ∀ b ∈ (replay calls).hat, b.isHat = true := by
  induction calls using List.reverseRecOn with
  | nil => simp [replay, Pad.neutral]
  | append_singleton calls c ih =>
    rw [replay, List.foldl_append, List.foldl_cons, List.foldl_nil]
    change ∀ b ∈ (left ((c.invoke : Java (Pad O) Unit) (replay calls))).hat, _
    rcases c with b | (_ | b) | _
    · change ∀ d ∈ ((replay calls).hold b).hat, _
      unfold Pad.hold
      split
      · rename_i hb
        rintro d hd
        exact Option.some.inj hd ▸ hb
      · exact ih
    · exact ih
    · change ∀ d ∈ ((replay calls).release b).hat, _
      unfold Pad.release
      split
      · exact fun _ hd => by cases hd
      · exact ih
    · exact ih

theorem reads_of_shown {info : ReportInfo} (h : Describes info) {calls : List (Call O)} {report : List (BitVec 8)} {k : ℕ}
    (hshown : Shown calls report k) : Reads info report (replay (calls.take k)) := by
  obtain ⟨vc, hvc, hbuttons, hhat⟩ := hshown
  obtain rfl := wire_of_decode hvc
  refine ⟨fun b hb => ?_, ?_⟩
  · rw [h.button vc (bitOf_lt b)]
    have hbit : vc.Button.getLsbD (bitOf b) = (replay (calls.take k)).held b := by
      refine Bool.eq_iff_iff.mpr ((hbuttons (bitOf b)).trans ⟨?_, fun hheld => ?_⟩)
      · rintro ⟨c, hc, hheld, hmask⟩
        rwa [← (mask_bit b c hb hc).mp hmask]
      · exact ⟨b, hb, hheld, (mask_bit b b hb hb).mpr rfl⟩
    rw [hbit]
    cases (replay (calls.take k)).held b <;> rfl
  · rw [h.hat vc, hhat]
    cases hd : (replay (calls.take k)).hat with
    | none => rfl
    | some b =>
      obtain ⟨hle, hvalue⟩ := hat_bits b (isHat_replay _ b hd)
      rw [if_pos hle, hvalue]
      rfl

/-- The reports, read by way of the descriptor, are snapshots of the calls, in their order. -/
def ReadInOrder (info : ReportInfo) (calls : List (Call O)) (reports : List (List (BitVec 8))) : Prop :=
  ∃ ks : List ℕ, ks.Pairwise (· ≤ ·) ∧ (∀ k ∈ ks, k ≤ calls.length) ∧
    List.Forall₂ (fun report k => Reads info report (replay (calls.take k))) reports ks

theorem readInOrder_of_inOrder {info : ReportInfo} (h : Describes info) {calls : List (Call O)}
    {reports : List (List (BitVec 8))} {n : ℕ} (hn : n ≤ calls.length) (horder : InOrder calls n reports) :
    ReadInOrder info calls reports := by
  obtain ⟨ks, hsorted, hle, hshown⟩ := horder
  exact ⟨ks, hsorted, fun k hk => (hle k hk).trans hn, hshown.imp fun _ _ => reads_of_shown h⟩

/-- The answers that were asked for in full. -/
def complete (answers : List Answer) : List (List (BitVec 8)) :=
  (answers.filter fun answer => 8 ≤ answer.wLength.toNat).map Answer.bytes

theorem length_of_shown {calls : List (Call O)} {report : List (BitVec 8)} {k : ℕ} (h : Shown calls report k) :
    report.length = 8 := by
  obtain ⟨vc, hvc, -⟩ := h
  rw [wire_of_decode hvc]
  rfl

/-- An answer asked for in full is the report it was cut from. -/
theorem inOrder_complete {calls : List (Call O)} {n : ℕ} {answers : List Answer}
    (h : AnsweredInOrder calls n answers) : InOrder calls n (complete answers) := by
  obtain ⟨reports, ⟨ks, hsorted, hle, hshown⟩, hcut⟩ := h
  -- the snapshots of the answers that are kept are some of all the snapshots
  have hkept : ∃ ks', ks'.Sublist ks ∧ List.Forall₂ (Shown calls) (complete answers) ks' := by
    clear hsorted hle
    induction hcut generalizing ks with
    | nil =>
      cases hshown
      exact ⟨[], .refl _, .nil⟩
    | @cons answer report answers reports hanswer _ ih =>
      cases hshown with
      | @cons _ k _ ks hk hks =>
        obtain ⟨ks', hsub, hforall⟩ := ih ks hks
        by_cases hfull : 8 ≤ answer.wLength.toNat
        · have hbytes : answer.bytes = report := by
            rw [hanswer, List.take_of_length_le (by rw [length_of_shown hk]; exact hfull)]
          refine ⟨k :: ks', hsub.cons_cons k, ?_⟩
          rw [complete, List.filter_cons_of_pos (by simpa using hfull), List.map_cons, hbytes]
          exact .cons hk hforall
        · refine ⟨ks', hsub.cons k, ?_⟩
          rw [complete, List.filter_cons_of_neg (by simpa using hfull)]
          exact hforall
  obtain ⟨ks', hsub, hforall⟩ := hkept
  exact ⟨ks', hsorted.sublist hsub, fun k hk => hle k (hsub.subset hk), hforall⟩

end Taken

/-- Whatever the calls, the line, the main loop and the console do: a console that reads
the reports it takes, and the answers it asks for in full, by way of the descriptor sees
the buttons and the hat of the pad as they were after some of the calls, in their order. -/
theorem buttons_in_order {pressTime : ℤ} {s : State MonsterHunterRiseDirectionStick}
    (h : Reach Console.step (timed pressTime) (State.init pressTime) s) :
    ∃ info, (∀ n, USB_ProcessHIDReport n (fun _ => true) JoystickReport = .ok info ↔ 30 ≤ n) ∧
      ReadInOrder info (protocolCalls pressTime s.made) s.delivered ∧
      ReadInOrder info (protocolCalls pressTime s.made) (complete s.answered) := by
  obtain ⟨info, hdescribes, hroom⟩ := exists_described
  obtain ⟨-, -, -, done, -, -, hqueued, hanswered⟩ := inv_of_reach axisCommands_direction h
  have hle := completed_le_length (protocolCalls pressTime s.made) done.length
  exact ⟨info, hroom, readInOrder_of_inOrder hdescribes hle (hqueued.of_initial (List.prefix_append _ _)),
    readInOrder_of_inOrder hdescribes hle (inOrder_complete hanswered)⟩

/-- The console asks for the whole report. -/
def askAll : Transfer := ⟨⟨classToHost, HID_REQ_GetReport, 0x0100, 0, 8⟩, false⟩

/-- A button is held, and the console asks for a report in which it is pressed and takes one
from before. -/
theorem buttons_in_order_hold : ∃ (s : State MonsterHunterRiseDirectionStick) (info : ReportInfo),
    s.delivered.length = 1 ∧ (complete s.answered).length = 1 ∧ protocolCalls 100 s.made = [.hold .A] ∧
      (∀ n, USB_ProcessHIDReport n (fun _ => true) JoystickReport = .ok info ↔ 30 ≤ n) ∧
      ReadInOrder info (protocolCalls 100 s.made) s.delivered ∧
      ReadInOrder info (protocolCalls 100 s.made) (complete s.answered) := by
  obtain ⟨s, hrun, hdelivered, hanswered, hcalls⟩ : ∃ s : State MonsterHunterRiseDirectionStick,
      run Console.step (timed 100) (State.init 100)
        (firstReport ++ heldButton.dropLast ++ [.loop (some askAll), .poll]) =
          some s ∧
        s.delivered.length = 1 ∧ (complete s.answered).length = 1 ∧ protocolCalls 100 s.made = [.hold .A] :=
    ⟨_, rfl, rfl, rfl, rfl⟩
  obtain ⟨info, hroom, hread⟩ := buttons_in_order (reach_of_run _ .start hrun)
  exact ⟨s, info, hdelivered, hanswered, hcalls, hroom, hread⟩

end HidReport
end PGCon
