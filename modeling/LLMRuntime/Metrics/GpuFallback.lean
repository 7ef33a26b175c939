import LLMRuntime.Metrics.Gpu

namespace LLMRuntime

open FloatText

section Readable

variable (u : UnicodeDigits)

/-- The digits of the text are decimal digits, and few enough for `int`. -/
def Numeral (value : List Char) : Prop :=
  (∀ c ∈ value, u.isDigit c = true → (u.decimal c).isSome = true) ∧ (value.filter u.isDigit).length ≤ intMaxStrDigits

def numeralValue (value : List Char) : Nat :=
  (value.filter u.isDigit).foldl (fun n c => 10 * n + (u.decimal c).getD 0) 0

def column (row : List (List Char)) (k : Nat) : List Char := strip (row.getD k [])

/-- A row that is not blank and has a field for each query. -/
def DeviceRow (row : List (List Char)) : Prop :=
  NvidiaSmiSampler.queryFields.length ≤ row.length ∧ ¬ row.all (fun value => (strip value).isEmpty) = true

instance : DecidablePred DeviceRow := fun _ => inferInstanceAs (Decidable (_ ∧ _))

def Numerals (row : List (List Char)) : Prop :=
  Numeral u (column row 0) ∧ Numeral u (column row 2) ∧ Numeral u (column row 3) ∧ Numeral u (column row 4)

def deviceOf (row : List (List Char)) : GPUDeviceSnapshot :=
  { index := numeralValue u (column row 0), name := String.ofList (column row 1)
    memoryUsedMb := numeralValue u (column row 2), memoryTotalMb := numeralValue u (column row 3)
    utilizationPct := numeralValue u (column row 4) }

def readRows (stdout : String) : List (List (List Char)) := (Csv.read fieldSizeLimit stdout.toList).1

def deviceRows (stdout : String) : List (List (List Char)) := (readRows stdout).filter DeviceRow

structure ReadableOutput (stdout : String) : Prop where
  rows : Csv.Readable fieldSizeLimit {} stdout.toList
  numerals : ∀ row ∈ readRows stdout, DeviceRow row → Numerals u row
  finite : deviceRows stdout ≠ [] →
    ((deviceRows stdout).map fun row => numeralValue u (column row 4)).sum < floatLimit * (deviceRows stdout).length

end Readable

section Parsing

variable (u : UnicodeDigits)

theorem int_cases (digits : List Char) :
    ((∀ c ∈ digits, (u.decimal c).isSome = true) ∧ digits.length ≤ intMaxStrDigits ∧
      u.int digits = .ok (digits.foldl (fun n c => 10 * n + (u.decimal c).getD 0) 0)) ∨
    ¬ ((∀ c ∈ digits, (u.decimal c).isSome = true) ∧ digits.length ≤ intMaxStrDigits) ∧
      ∃ message, u.int digits = .error (valueError message) := by
  unfold UnicodeDigits.int
  dsimp only
  by_cases all : ∀ c ∈ digits, (u.decimal c).isSome = true
  · rw [List.takeWhile_eq_self_iff.mpr all]
    by_cases short : digits.length ≤ intMaxStrDigits
    · left
      exact ⟨all, short, by rw [if_neg (not_lt.mpr short), if_neg (lt_irrefl _)]⟩
    · right
      exact ⟨fun both => short both.2, _, by rw [if_pos (not_le.mp short)]⟩
  · right
    refine ⟨fun both => all both.1, ?_⟩
    have cut : (digits.takeWhile fun c => (u.decimal c).isSome).length < digits.length := by
      apply lt_of_le_of_ne (List.takeWhile_prefix _).length_le
      intro same
      have whole := (List.takeWhile_prefix fun c => (u.decimal c).isSome).eq_of_length same
      exact all (List.takeWhile_eq_self_iff.mp whole)
    rw [if_pos cut]
    split <;> exact ⟨_, rfl⟩

theorem parseInt_cases (value : List Char) :
    Numeral u value ∧ parseInt u value = .ok (numeralValue u value) ∨
    ¬ Numeral u value ∧ ∃ message, parseInt u value = .error (valueError message) := by
  have filtered : Numeral u value ↔ (∀ c ∈ value.filter u.isDigit, (u.decimal c).isSome = true) ∧
      (value.filter u.isDigit).length ≤ intMaxStrDigits := by
    simp only [Numeral, List.mem_filter, and_imp]
  rw [filtered]
  unfold parseInt numeralValue
  dsimp only
  by_cases empty : value.filter u.isDigit = []
  · left
    rw [empty]
    exact ⟨⟨by simp, by decide⟩, rfl⟩
  · rw [if_neg (by rwa [List.isEmpty_iff])]
    rcases int_cases u (value.filter u.isDigit) with ⟨all, short, read⟩ | ⟨bad, raised⟩
    · left
      exact ⟨⟨all, short⟩, read⟩
    · right
      exact ⟨bad, raised⟩

theorem parseDevice_none {row : List (List Char)} (other : ¬ DeviceRow row) : parseDevice u row = .ok none := by
  by_cases long : NvidiaSmiSampler.queryFields.length ≤ row.length
  · have blank : row.all (fun value => (strip value).isEmpty) = true := by
      by_contra visible
      exact other ⟨long, visible⟩
    rw [parseDevice, blank, Bool.or_true, if_pos rfl]
  · exact parseDevice_short u (not_le.mp long)

theorem parseDevice_row {row : List (List Char)} (device : DeviceRow row) :
    parseDevice u row = do
      let index ← parseInt u (column row 0)
      let memoryUsed ← parseInt u (column row 2)
      let memoryTotal ← parseInt u (column row 3)
      let utilization ← parseInt u (column row 4)
      return some
        { index, name := String.ofList (column row 1), memoryUsedMb := memoryUsed, memoryTotalMb := memoryTotal
          utilizationPct := utilization } := by
  obtain ⟨long, visible⟩ := device
  match row, long with
  | index :: name :: used :: total :: utilization :: rest, _ =>
    unfold parseDevice
    rw [if_neg (by simpa using visible)]
    rfl

theorem parseDevice_cases {row : List (List Char)} (device : DeviceRow row) :
    Numerals u row ∧ parseDevice u row = .ok (some (deviceOf u row)) ∨
    ¬ Numerals u row ∧ ∃ message, parseDevice u row = .error (valueError message) := by
  rw [parseDevice_row u device]
  rcases parseInt_cases u (column row 0) with ⟨index, read⟩ | ⟨bad, message, raised⟩
  · rw [read]
    rcases parseInt_cases u (column row 2) with ⟨used, read⟩ | ⟨bad, message, raised⟩
    · rw [read]
      rcases parseInt_cases u (column row 3) with ⟨total, read⟩ | ⟨bad, message, raised⟩
      · rw [read]
        rcases parseInt_cases u (column row 4) with ⟨utilization, read⟩ | ⟨bad, message, raised⟩
        · rw [read]
          exact .inl ⟨⟨index, used, total, utilization⟩, rfl⟩
        · rw [raised]
          exact .inr ⟨fun all => bad all.2.2.2, message, rfl⟩
      · rw [raised]
        exact .inr ⟨fun all => bad all.2.2.1, message, rfl⟩
    · rw [raised]
      exact .inr ⟨fun all => bad all.2.1, message, rfl⟩
  · rw [raised]
    exact .inr ⟨fun all => bad all.1, message, rfl⟩

theorem parseDevices_cases (rows : List (List (List Char))) :
    (∀ row ∈ rows, DeviceRow row → Numerals u row) ∧
      parseDevices u rows = .ok ((rows.filter DeviceRow).map (deviceOf u)) ∨
    ¬ (∀ row ∈ rows, DeviceRow row → Numerals u row) ∧ ∃ message, parseDevices u rows = .error (valueError message) := by
  induction rows with
  | nil => exact .inl ⟨by simp, rfl⟩
  | cons row rows ih =>
    rw [List.forall_mem_cons, parseDevices]
    by_cases device : DeviceRow row
    · rw [List.filter_cons_of_pos (by simpa using device)]
      rcases parseDevice_cases u device with ⟨numerals, read⟩ | ⟨bad, message, raised⟩
      · rw [read]
        rcases ih with ⟨later, read⟩ | ⟨bad, message, raised⟩
        · rw [read]
          exact .inl ⟨⟨fun _ => numerals, later⟩, rfl⟩
        · rw [raised]
          exact .inr ⟨fun all => bad all.2, message, rfl⟩
      · rw [raised]
        exact .inr ⟨fun all => bad (all.1 device), message, rfl⟩
    · rw [List.filter_cons_of_neg (by simpa using device), parseDevice_none u device]
      rcases ih with ⟨later, read⟩ | ⟨bad, message, raised⟩
      · rw [read]
        exact .inl ⟨⟨fun other => absurd other device, later⟩, rfl⟩
      · rw [raised]
        exact .inr ⟨fun all => bad all.2, message, rfl⟩

theorem parseNvidiaSmi_cases (stdout : String) :
    (Csv.Readable fieldSizeLimit {} stdout.toList ∧ ∀ row ∈ readRows stdout, DeviceRow row → Numerals u row) ∧
      parseNvidiaSmi u stdout = .ok ((deviceRows stdout).map (deviceOf u)) ∨
    ¬ (Csv.Readable fieldSizeLimit {} stdout.toList ∧ ∀ row ∈ readRows stdout, DeviceRow row → Numerals u row) ∧
      ∃ error, parseNvidiaSmi u stdout = .error error ∧ error ≠ zeroDivision := by
  rw [← Csv.read_complete]
  unfold parseNvidiaSmi deviceRows readRows
  generalize Csv.read fieldSizeLimit stdout.toList = result
  obtain ⟨rows, raised⟩ := result
  dsimp only
  rcases parseDevices_cases u rows with ⟨numerals, read⟩ | ⟨bad, message, failed⟩
  · rw [read]
    cases raised with
    | none => exact .inl ⟨⟨rfl, numerals⟩, rfl⟩
    | some error =>
      refine .inr ⟨fun all => absurd all.1 (by simp), csvError error, rfl, ?_⟩
      cases error <;> simp [csvError, zeroDivision]
  · rw [failed]
    exact .inr ⟨fun all => bad all.2, valueError message, rfl, by simp [valueError, zeroDivision]⟩

end Parsing

/-- The snapshot of a machine whose devices are not known. -/
def Unavailable (snapshot : GPUSnapshot) : Prop :=
  snapshot.status = "unavailable" ∧ snapshot.gpuCount = 0 ∧ snapshot.memoryUsedMb = 0 ∧ snapshot.memoryTotalMb = 0 ∧
    snapshot.utilizationPct = 0 ∧ snapshot.gpus = []

theorem unavailable_reason (reason : String) : Unavailable (unavailable reason) := ⟨rfl, rfl, rfl, rfl, rfl, rfl⟩

def sampledRows : Option RunResult → List (List (List Char))
  | some (.completed returncode stdout _) => if returncode = 0 then readRows stdout else []
  | _ => []

def Readable (u : UnicodeDigits) : Option RunResult → Prop
  | some (.completed returncode stdout _) => returncode = 0 → ReadableOutput u stdout
  | _ => True

section Snapshot

variable (u : UnicodeDigits)

theorem summarize_deviceOf {rows : List (List (List Char))} (some : rows ≠ []) :
    let gpus := rows.map (deviceOf u)
    ((rows.map fun row => numeralValue u (column row 4)).sum < floatLimit * rows.length →
      ∃ snapshot, NvidiaSmiSampler.summarize gpus = .ok snapshot) ∧
    (¬ (rows.map fun row => numeralValue u (column row 4)).sum < floatLimit * rows.length →
      NvidiaSmiSampler.summarize gpus = .error quotientOverflow) := by
  have positive : 0 < rows.length := List.length_pos_iff.mpr some
  have total : ((rows.map (deviceOf u)).map fun gpu => gpu.utilizationPct.toNat) =
      rows.map fun row => numeralValue u (column row 4) := by
    rw [List.map_map]
    rfl
  dsimp only
  rw [NvidiaSmiSampler.summarize, total, List.length_map, trueDivide_eq positive]
  constructor
  · intro finite
    rw [if_pos finite]
    exact ⟨_, rfl⟩
  · intro large
    rw [if_neg large]
    rfl

theorem parsed_snapshot_cases (stdout : String) :
    let outcome := do
      let gpus ← parseNvidiaSmi u stdout
      if gpus.isEmpty then return unavailable "no GPU data" else NvidiaSmiSampler.summarize gpus
    (ReadableOutput u stdout ∧ ∃ snapshot, outcome = .ok snapshot ∧ (deviceRows stdout = [] → Unavailable snapshot)) ∨
    ¬ ReadableOutput u stdout ∧ ∃ error, outcome = .error error ∧ error ≠ zeroDivision := by
  dsimp only
  rcases parseNvidiaSmi_cases u stdout with ⟨⟨rows, numerals⟩, read⟩ | ⟨bad, error, raised, other⟩
  · rw [read]
    by_cases empty : deviceRows stdout = []
    · left
      refine ⟨⟨rows, numerals, fun some => absurd empty some⟩, unavailable "no GPU data", ?_, ?_⟩
      · rw [empty]
        rfl
      · intro _
        exact unavailable_reason _
    · have found : ((deviceRows stdout).map (deviceOf u)).isEmpty = false := by
        rw [List.isEmpty_eq_false_iff]
        exact List.map_eq_nil_iff.not.mpr empty
      show _ ∧ (∃ snapshot, (if ((deviceRows stdout).map (deviceOf u)).isEmpty then _ else _) = _ ∧ _) ∨
        _ ∧ ∃ error, (if ((deviceRows stdout).map (deviceOf u)).isEmpty then _ else _) = _ ∧ _
      rw [if_neg (by rw [found]; decide)]
      by_cases finite : ((deviceRows stdout).map fun row => numeralValue u (column row 4)).sum <
          floatLimit * (deviceRows stdout).length
      · left
        obtain ⟨snapshot, summarized⟩ := (summarize_deviceOf u empty).1 finite
        exact ⟨⟨rows, numerals, fun _ => finite⟩, snapshot, summarized, fun none => absurd none empty⟩
      · right
        refine ⟨fun readable => finite (readable.finite empty), quotientOverflow, (summarize_deviceOf u empty).2 finite, ?_⟩
        simp [quotientOverflow, zeroDivision]
  · right
    rw [raised]
    exact ⟨fun readable => bad ⟨readable.rows, readable.numerals⟩, error, rfl, other⟩

theorem deviceRows_eq_nil {stdout : String}
    (short : ∀ row ∈ readRows stdout, row.length < NvidiaSmiSampler.queryFields.length) : deviceRows stdout = [] := by
  apply List.filter_eq_nil_iff.mpr
  intro row member
  rw [decide_eq_true_iff]
  intro device
  have less := short row member
  have least := device.1
  omega

end Snapshot

theorem gpu_fallback_iff (u : UnicodeDigits) (machine : Machine) (sampler : NvidiaSmiSampler) :
    sampler.snapshot u machine ≠ .error zeroDivision ∧
    ((∃ snapshot, sampler.snapshot u machine = .ok snapshot ∧
      ((∀ row ∈ sampledRows (sampler.result machine), row.length < NvidiaSmiSampler.queryFields.length) →
        Unavailable snapshot)) ↔
      Readable u (sampler.result machine)) := by
  unfold NvidiaSmiSampler.snapshot
  have fallback (reason : String) {rows : Prop} : (Except.ok (unavailable reason) : Except PyException GPUSnapshot) ≠
      .error zeroDivision ∧
      ((∃ snapshot, (Except.ok (unavailable reason) : Except PyException GPUSnapshot) = .ok snapshot ∧
        (rows → Unavailable snapshot)) ↔ True) :=
    ⟨nofun, iff_true_intro ⟨_, rfl, fun _ => unavailable_reason reason⟩⟩
  rcases sampler.result machine with _ | ⟨returncode, stdout, stderr⟩ | _ | message
  · exact fallback _
  · by_cases failed : returncode ≠ 0
    · dsimp only
      rw [if_pos failed]
      have readable : Readable u (some (.completed returncode stdout stderr)) ↔ True :=
        iff_true_intro fun success => absurd success failed
      rw [readable]
      exact fallback _
    · obtain rfl : returncode = 0 := not_not.mp failed
      have readable : Readable u (some (.completed 0 stdout stderr)) ↔ ReadableOutput u stdout :=
        ⟨fun read => read rfl, fun read _ => read⟩
      dsimp only
      rw [if_neg failed, readable]
      rcases parsed_snapshot_cases u stdout with ⟨read, snapshot, done, none⟩ | ⟨bad, error, raised, other⟩
      · rw [done]
        refine ⟨nofun, iff_of_true ⟨snapshot, rfl, fun short => none (deviceRows_eq_nil short)⟩ read⟩
      · rw [raised]
        refine ⟨fun same => other (Except.error.inj same), iff_of_false ?_ bad⟩
        rintro ⟨snapshot, done, -⟩
        cases done
  · exact fallback _
  · exact fallback _

/-- A superscript digit, and a carriage return within a field, make the sampler raise. -/
theorem gpu_fallback_raises :
    ((NvidiaSmiSampler.ending (.completed 0 "0, A, ², 1, 1\n" "")).snapshot UnicodeDigits.latin Machine.stalled).map
      (fun snapshot => snapshot.status) = .error (valueError "invalid literal for int() with base 10: '²'") ∧
    ((NvidiaSmiSampler.ending (.completed 0 "0, A\rB, 1, 1, 1\n" "")).snapshot UnicodeDigits.latin Machine.stalled).map
      (fun snapshot => snapshot.status) = .error (csvError .newlineInField) := by
  decide +kernel

end LLMRuntime
