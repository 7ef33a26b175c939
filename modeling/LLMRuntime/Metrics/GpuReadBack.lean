import LLMRuntime.Metrics.Gpu
import Mathlib.Algebra.BigOperators.Ring.Finset
import Mathlib.Algebra.Order.BigOperators.Group.List

namespace LLMRuntime

open FloatText

section Digits

variable (u : UnicodeDigits)

theorem exists_digitChar {c : Char} (digit : c.isDigit) : ∃ d < 10, c = Nat.digitChar d := by
  have range : 48 ≤ c.toNat ∧ c.toNat ≤ 57 := Char.isDigit_iff_toNat.mp digit
  have value : c.toNat - 48 < 10 := by omega
  refine ⟨c.toNat - 48, value, Char.toNat_inj.mp ?_⟩
  rw [Nat.toNat_digitChar_of_lt_ten value]
  omega

theorem exists_digitChar_of_mem {n : Nat} {c : Char} (member : c ∈ Nat.toDigits 10 n) : ∃ d < 10, c = Nat.digitChar d :=
  exists_digitChar (Nat.isDigit_of_mem_toDigits (by decide) (by decide) member)

theorem decimal_toDigits {n : Nat} {c : Char} (member : c ∈ Nat.toDigits 10 n) :
    u.isDigit c = true ∧ u.decimal c = some (c.toNat - '0'.toNat) := by
  obtain ⟨d, small, rfl⟩ := exists_digitChar_of_mem member
  rw [show (Nat.digitChar d).toNat - '0'.toNat = d from Nat.toNat_digitChar_sub_48_of_lt_ten small]
  exact u.ascii d small

theorem isSpace_toDigits {n : Nat} {c : Char} (member : c ∈ Nat.toDigits 10 n) : isSpace c = false := by
  obtain ⟨d, small, rfl⟩ := exists_digitChar_of_mem member
  have digits : ∀ d < 10, isSpace (Nat.digitChar d) = false := by decide
  exact digits d small

theorem parseInt_toDigits {n : Nat} (limit : (Nat.toDigits 10 n).length ≤ intMaxStrDigits) :
    parseInt u (Nat.toDigits 10 n) = .ok n := by
  have all : (Nat.toDigits 10 n).filter u.isDigit = Nat.toDigits 10 n :=
    List.filter_eq_self.mpr fun c member => (decimal_toDigits u member).1
  have decimals : (Nat.toDigits 10 n).takeWhile (fun c => (u.decimal c).isSome) = Nat.toDigits 10 n := by
    apply List.takeWhile_eq_self_iff.mpr
    intro c member
    rw [(decimal_toDigits u member).2]
    rfl
  have value : (Nat.toDigits 10 n).foldl (fun n c => 10 * n + (u.decimal c).getD 0) 0 = n := by
    have digits := Nat.ofDigitChars_ten_toDigits (n := n)
    rw [Nat.ofDigitChars_eq_foldl] at digits
    refine Eq.trans (List.foldl_ext _ _ 0 ?_) digits
    intro k c member
    rw [(decimal_toDigits u member).2]
    rfl
  have some : (Nat.toDigits 10 n).isEmpty = false := by
    rw [List.isEmpty_eq_false_iff]
    exact Nat.toDigits_ne_nil
  unfold parseInt UnicodeDigits.int
  dsimp only
  rw [all, decimals, value, some, if_neg (by decide), if_neg (by omega), if_neg (lt_irrefl _)]

end Digits

section Strip

theorem strip_blank (text : List Char) : strip (' ' :: text) = strip text := by
  unfold strip TextLines.strip
  rw [List.dropWhile_cons_of_pos (by decide)]

theorem strip_toDigits (n : Nat) : strip (Nat.toDigits 10 n) = Nat.toDigits 10 n := by
  have visible {c : Char} (member : c ∈ Nat.toDigits 10 n) : ¬ isSpace c = true := by
    rw [isSpace_toDigits member]
    decide
  have start : (Nat.toDigits 10 n).dropWhile isSpace = Nat.toDigits 10 n := by
    apply List.dropWhile_eq_self_iff.mpr
    intro some
    exact visible (List.getElem_mem some)
  unfold strip TextLines.strip
  rw [start]
  apply List.rdropWhile_eq_self_iff.mpr
  intro some
  exact visible (List.getLast_mem some)

end Strip

/-- A device as `nvidia-smi` knows it, with a name that its output can hold. -/
structure SmiDevice where
  index : Nat
  name : List Char
  used : Nat
  total : Nat
  utilization : Nat
  digits : ∀ n ∈ [index, used, total, utilization], (Nat.toDigits 10 n).length ≤ intMaxStrDigits
  plain : Csv.Plain name
  comma : ',' ∉ name
  stripped : strip name = name

namespace SmiDevice

variable (device : SmiDevice)

def fields : List (List Char) :=
  [Nat.toDigits 10 device.index, ' ' :: device.name, ' ' :: Nat.toDigits 10 device.used, ' ' :: Nat.toDigits 10 device.total,
    ' ' :: Nat.toDigits 10 device.utilization]

/-- The line that `nvidia-smi` writes. -/
def text : List Char :=
  ", ".toList.intercalate [Nat.toDigits 10 device.index, device.name, Nat.toDigits 10 device.used,
    Nat.toDigits 10 device.total, Nat.toDigits 10 device.utilization]

def snapshot : GPUDeviceSnapshot :=
  { index := device.index, name := String.ofList device.name, memoryUsedMb := device.used, memoryTotalMb := device.total
    utilizationPct := device.utilization }

theorem text_eq : device.text = [','].intercalate device.fields := by
  simp [text, fields, List.intercalate]

theorem not_mem_toDigits {c : Char} (other : c.isDigit = false) (n : Nat) : c ∉ Nat.toDigits 10 n := by
  intro member
  rw [Nat.isDigit_of_mem_toDigits (by decide) (by decide) member] at other
  cases other

theorem splitOn_text : device.text.splitOn ',' = device.fields := by
  rw [text_eq]
  apply List.splitOn_intercalate
  · intro field member
    simp only [fields, List.mem_cons, List.not_mem_nil, or_false] at member
    rcases member with rfl | rfl | rfl | rfl | rfl <;> simp [not_mem_toDigits, device.comma]
  · exact List.cons_ne_nil _ _

theorem plain_text : Csv.Plain device.text := by
  have digits (n : Nat) : Csv.Plain (Nat.toDigits 10 n) := by
    intro c member
    refine ⟨?_, ?_, ?_⟩ <;> rintro rfl <;> exact not_mem_toDigits (by decide) n member
  have separator : Csv.Plain ", ".toList := TextLines.forall_mem_of_all (by decide +kernel)
  intro c member
  have cases : c ∈ Nat.toDigits 10 device.index ∨ c ∈ device.name ∨ c ∈ Nat.toDigits 10 device.used ∨
      c ∈ Nat.toDigits 10 device.total ∨ c ∈ Nat.toDigits 10 device.utilization ∨ c ∈ ", ".toList := by
    simp only [text, List.intercalate, List.intersperse, List.flatten_cons, List.flatten_nil, List.mem_append] at member
    tauto
  rcases cases with inside | inside | inside | inside | inside | inside
  · exact digits _ c inside
  · exact device.plain c inside
  · exact digits _ c inside
  · exact digits _ c inside
  · exact digits _ c inside
  · exact separator c inside

theorem parseDevice_text (u : UnicodeDigits) : parseDevice u (Csv.plainRow device.text) = .ok (some device.snapshot) := by
  have row : Csv.plainRow device.text = device.fields := by
    unfold Csv.plainRow
    rw [splitOn_text, if_neg]
    intro empty
    have split := congrArg List.length device.splitOn_text
    rw [empty] at split
    exact absurd split (by decide : ¬ 1 = 5)
  have visible : (strip (Nat.toDigits 10 device.index)).isEmpty = false := by
    rw [strip_toDigits, List.isEmpty_eq_false_iff]
    exact Nat.toDigits_ne_nil
  have number (n : Nat) (member : n ∈ [device.index, device.used, device.total, device.utilization]) :=
    parseInt_toDigits u (device.digits n member)
  have blank : (device.fields.isEmpty || device.fields.all fun value => (strip value).isEmpty) = false := by
    simp [fields, visible]
  rw [row, parseDevice, blank, if_neg (by decide)]
  simp only [fields, List.map_cons, List.map_nil, strip_blank, strip_toDigits, device.stripped]
  rw [number device.index (by simp), number device.used (by simp), number device.total (by simp),
    number device.utilization (by simp)]
  rfl

end SmiDevice

/-- A line of the output: a device, or a blank or short line between them. -/
inductive SmiLine where
  | device (gpu : SmiDevice)
  | other (text : List Char) (plain : Csv.Plain text) (short : (text.splitOn ',').length < NvidiaSmiSampler.queryFields.length)

namespace SmiLine

def text : SmiLine → List Char
  | .device gpu => gpu.text
  | .other text _ _ => text

def devices (lines : List SmiLine) : List SmiDevice :=
  lines.filterMap fun line => match line with
    | .device gpu => some gpu
    | .other _ _ _ => none

def output (lines : List SmiLine) : List Char := lines.flatMap fun line => line.text ++ ['\n']

theorem plain_text (line : SmiLine) : Csv.Plain line.text := by
  cases line with
  | device gpu => exact gpu.plain_text
  | other text plain short => exact plain

theorem parseDevices_lines (u : UnicodeDigits) (lines : List SmiLine) :
    parseDevices u (lines.map fun line => Csv.plainRow line.text) = .ok ((devices lines).map SmiDevice.snapshot) := by
  induction lines with
  | nil => rfl
  | cons line lines ih =>
    rw [List.map_cons, parseDevices, ih]
    cases line with
    | device gpu =>
      show (parseDevice u (Csv.plainRow gpu.text) >>= _) = _
      rw [gpu.parseDevice_text]
      rfl
    | other text plain short =>
      have fields : (Csv.plainRow text).length < 5 := by
        unfold Csv.plainRow
        split
        · decide
        · exact short
      show (parseDevice u (Csv.plainRow text) >>= _) = _
      rw [parseDevice_short u fields]
      rfl

end SmiLine

theorem parseNvidiaSmi_output (u : UnicodeDigits) {lines : List SmiLine}
    (fits : ∀ line ∈ lines, ∀ field ∈ line.text.splitOn ',', field.length ≤ fieldSizeLimit) :
    parseNvidiaSmi u (String.ofList (SmiLine.output lines)) = .ok ((SmiLine.devices lines).map SmiDevice.snapshot) := by
  have output : SmiLine.output lines = (lines.map SmiLine.text).flatMap (· ++ ['\n']) := by
    rw [List.flatMap_map]
    rfl
  have plain : ∀ text ∈ lines.map SmiLine.text, Csv.Plain text := by
    intro text member
    obtain ⟨line, -, rfl⟩ := List.mem_map.mp member
    exact line.plain_text
  have short : ∀ text ∈ lines.map SmiLine.text, ∀ field ∈ text.splitOn ',', field.length ≤ fieldSizeLimit := by
    intro text member
    obtain ⟨line, inside, rfl⟩ := List.mem_map.mp member
    exact fits line inside
  unfold parseNvidiaSmi
  rw [String.toList_ofList, output, Csv.read_plain plain short]
  dsimp only
  rw [List.map_map]
  show (parseDevices u (lines.map fun line => Csv.plainRow line.text) >>= _) = _
  rw [SmiLine.parseDevices_lines]
  rfl

section Aggregates

theorem mean_bounds {values : List Nat} (nonempty : values ≠ []) {low high : Nat}
    (bounds : ∀ value ∈ values, low ≤ value ∧ value ≤ high) :
    (low : ℚ) ≤ (values.sum : ℚ) / values.length ∧ (values.sum : ℚ) / values.length ≤ high := by
  have positive : (0 : ℚ) < values.length := by exact_mod_cast List.length_pos_iff.mpr nonempty
  have least : values.length * low ≤ values.sum := List.card_nsmul_le_sum values low fun value member => (bounds value member).1
  have most : values.sum ≤ values.length * high := List.sum_le_card_nsmul values high fun value member => (bounds value member).2
  rw [le_div_iff₀ positive, div_le_iff₀ positive, mul_comm (low : ℚ), mul_comm (high : ℚ)]
  exact ⟨by exact_mod_cast least, by exact_mod_cast most⟩

/-- The mean that is reported passes neither of the doubles nearest to the bounds. -/
theorem rounded_mean_bounds {mean : ℚ} {low high : Nat} (above : (low : ℚ) ≤ mean) (below : mean ≤ high) :
    nearestDouble low ≤ FloatText.roundHalfEven (nearestDouble mean) ∧ FloatText.roundHalfEven (nearestDouble mean) ≤ nearestDouble high := by
  have nonneg : (0 : ℚ) ≤ low := Nat.cast_nonneg low
  have left : nearestDouble low ≤ nearestDouble mean := nearestDouble_le_nearestDouble nonneg above
  have right : nearestDouble mean ≤ nearestDouble high := nearestDouble_le_nearestDouble (nonneg.trans above) below
  rw [← roundHalfEven_nearestDouble low, ← roundHalfEven_nearestDouble high]
  constructor
  · exact_mod_cast roundHalfEven_mono left
  · exact_mod_cast roundHalfEven_mono right

end Aggregates

namespace SmiLine

variable (lines : List SmiLine)

def utilizations : List Nat := (devices lines).map SmiDevice.utilization

def mean : ℚ := ((utilizations lines).sum : ℚ) / (utilizations lines).length

/-- The snapshot of the devices, with the utilization that it reports for all of them. -/
def available (utilization : Int) : GPUSnapshot :=
  { status := "available", source := "nvidia-smi", gpuCount := (devices lines).length
    memoryUsedMb := ((devices lines).map SmiDevice.used).sum, memoryTotalMb := ((devices lines).map SmiDevice.total).sum
    utilizationPct := utilization, gpus := (devices lines).map SmiDevice.snapshot }

theorem summarize_devices (some : devices lines ≠ []) :
    NvidiaSmiSampler.summarize ((devices lines).map SmiDevice.snapshot) =
      if (utilizations lines).sum < floatLimit * (devices lines).length then
        .ok (available lines (FloatText.roundHalfEven (nearestDouble (mean lines))))
      else .error quotientOverflow := by
  have average : ((utilizations lines).sum : ℚ) / (devices lines).length = mean lines := by
    rw [mean, utilizations, List.length_map]
  have positive : 0 < (devices lines).length := List.length_pos_iff.mpr some
  have total : (((devices lines).map SmiDevice.snapshot).map fun gpu => gpu.utilizationPct.toNat) = utilizations lines := by
    rw [List.map_map]
    rfl
  have used : (((devices lines).map SmiDevice.snapshot).map GPUDeviceSnapshot.memoryUsedMb).sum =
      (((devices lines).map SmiDevice.used).sum : Nat) := by
    rw [List.map_map, Nat.cast_list_sum, List.map_map]
    rfl
  have memory : (((devices lines).map SmiDevice.snapshot).map GPUDeviceSnapshot.memoryTotalMb).sum =
      (((devices lines).map SmiDevice.total).sum : Nat) := by
    rw [List.map_map, Nat.cast_list_sum, List.map_map]
    rfl
  rw [NvidiaSmiSampler.summarize, total, List.length_map, trueDivide_eq positive, average]
  split
  · rw [used, memory]
    rfl
  · rfl

end SmiLine

theorem gpu_read_back (u : UnicodeDigits) (machine : Machine) (sampler : NvidiaSmiSampler) {lines : List SmiLine}
    {stderr : String} (nonempty : SmiLine.devices lines ≠ [])
    (fits : ∀ line ∈ lines, ∀ field ∈ line.text.splitOn ',', field.length ≤ fieldSizeLimit)
    (ran : sampler.result machine = some (.completed 0 (String.ofList (SmiLine.output lines)) stderr)) :
    ((SmiLine.utilizations lines).sum < floatLimit * (SmiLine.devices lines).length →
      ∃ utilization : Int, sampler.snapshot u machine = .ok (SmiLine.available lines utilization) ∧
        ∀ low high : Nat, (∀ device ∈ SmiLine.devices lines, low ≤ device.utilization ∧ device.utilization ≤ high) →
          nearestDouble low ≤ utilization ∧ utilization ≤ nearestDouble high ∧
            (high ≤ 2 ^ 53 → (low : Int) ≤ utilization ∧ utilization ≤ high)) ∧
    (floatLimit * (SmiLine.devices lines).length ≤ (SmiLine.utilizations lines).sum →
      sampler.snapshot u machine = .error quotientOverflow) := by
  have some : SmiLine.utilizations lines ≠ [] := List.map_eq_nil_iff.not.mpr nonempty
  have bounds {low high : Nat} (all : ∀ device ∈ SmiLine.devices lines, low ≤ device.utilization ∧ device.utilization ≤ high) :
      (low : ℚ) ≤ SmiLine.mean lines ∧ SmiLine.mean lines ≤ high := by
    apply mean_bounds some
    intro value member
    obtain ⟨device, inside, rfl⟩ := List.mem_map.mp member
    exact all device inside
  have snapshot : sampler.snapshot u machine = NvidiaSmiSampler.summarize ((SmiLine.devices lines).map SmiDevice.snapshot) := by
    have found : ((SmiLine.devices lines).map SmiDevice.snapshot).isEmpty = false := by
      rw [List.isEmpty_eq_false_iff]
      exact List.map_eq_nil_iff.not.mpr nonempty
    unfold NvidiaSmiSampler.snapshot
    rw [ran]
    dsimp only
    rw [if_neg (by decide), parseNvidiaSmi_output u fits]
    show (if ((SmiLine.devices lines).map SmiDevice.snapshot).isEmpty then _ else _) = _
    rw [if_neg (by rw [found]; decide)]
  rw [SmiLine.summarize_devices lines nonempty] at snapshot
  constructor
  · intro finite
    rw [if_pos finite] at snapshot
    refine ⟨_, snapshot, ?_⟩
    intro low high all
    obtain ⟨above, below⟩ := bounds all
    obtain ⟨left, right⟩ := rounded_mean_bounds above below
    refine ⟨left, right, ?_⟩
    intro narrow
    have order : low ≤ high := by exact_mod_cast above.trans below
    rw [nearestDouble_natCast (order.trans narrow)] at left
    rw [nearestDouble_natCast narrow] at right
    exact ⟨by exact_mod_cast left, by exact_mod_cast right⟩
  · intro large
    rw [if_neg (not_lt.mpr large)] at snapshot
    exact snapshot

namespace SmiDevice

def ofName (index : Nat) (name : List Char) (used total utilization : Nat)
    (digits : ∀ n ∈ [index, used, total, utilization], (Nat.toDigits 10 n).length ≤ intMaxStrDigits)
    (printable : (name.all fun c => decide (c ≠ '"' ∧ c ≠ '\n' ∧ c ≠ '\r' ∧ c ≠ ',')) = true)
    (stripped : strip name = name) : SmiDevice where
  index := index
  name := name
  used := used
  total := total
  utilization := utilization
  digits := digits
  plain c member := by
    obtain ⟨quote, lf, cr, -⟩ := TextLines.forall_mem_of_all printable c member
    exact ⟨quote, lf, cr⟩
  comma member := (TextLines.forall_mem_of_all printable ',' member).2.2.2 rfl
  stripped := stripped

def a100 : SmiDevice :=
  ofName 0 "NVIDIA A100-SXM4-40GB".toList 1024 40960 73 (by decide) (by decide +kernel) (by decide +kernel)

def l4 : SmiDevice := ofName 1 "NVIDIA L4".toList 2048 24576 45 (by decide) (by decide +kernel) (by decide +kernel)

def busy : SmiDevice := ofName 0 "A".toList 1 2 9007199254740993 (by decide +kernel) (by decide +kernel) (by decide +kernel)

end SmiDevice

def sampledLines : List SmiLine :=
  [.other [] (by simp [Csv.Plain]) (by decide), .device SmiDevice.a100,
    .other "No, running, processes".toList (TextLines.forall_mem_of_all (by decide +kernel)) (by decide +kernel),
    .device SmiDevice.l4]

theorem gpu_read_back_two : ∃ utilization : Int,
    (NvidiaSmiSampler.ending (.completed 0 (String.ofList (SmiLine.output sampledLines)) "")).snapshot UnicodeDigits.latin
      Machine.stalled = .ok (SmiLine.available sampledLines utilization) ∧
    45 ≤ utilization ∧ utilization ≤ 73 := by
  have nonempty : SmiLine.devices sampledLines ≠ [] := List.cons_ne_nil _ _
  have fits : ∀ line ∈ sampledLines, ∀ field ∈ line.text.splitOn ',', field.length ≤ fieldSizeLimit := by decide +kernel
  have finite : (SmiLine.utilizations sampledLines).sum < floatLimit * (SmiLine.devices sampledLines).length := by
    decide +kernel
  have bounds : ∀ device ∈ SmiLine.devices sampledLines, 45 ≤ device.utilization ∧ device.utilization ≤ 73 := by decide +kernel
  obtain ⟨read, -⟩ := gpu_read_back UnicodeDigits.latin Machine.stalled
    (NvidiaSmiSampler.ending (.completed 0 (String.ofList (SmiLine.output sampledLines)) "")) nonempty fits rfl
  obtain ⟨utilization, snapshot, between⟩ := read finite
  exact ⟨utilization, snapshot, (between 45 73 bounds).2.2 (by decide)⟩

theorem utilization_below_least :
    ((NvidiaSmiSampler.ending (.completed 0 (String.ofList (SmiLine.output [.device SmiDevice.busy])) "")).snapshot
      UnicodeDigits.latin Machine.stalled).toOption.map
        (fun snapshot => (snapshot.utilizationPct, snapshot.gpus.map GPUDeviceSnapshot.utilizationPct)) =
      some (9007199254740992, [9007199254740993]) ∧
    ∀ device ∈ SmiLine.devices [.device SmiDevice.busy], 9007199254740992 < device.utilization := by
  decide +kernel

end LLMRuntime
