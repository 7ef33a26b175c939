import LLMRuntime.Core.Response
import LLMRuntime.Foundation.Csv
import LLMRuntime.Foundation.DoubleRounding
import LLMRuntime.Metrics.Prometheus

namespace LLMRuntime

open FloatText

/-- The digits of Unicode: `str.isdigit`, and the values of those that are decimal digits. -/
structure UnicodeDigits where
  isDigit : Char → Bool
  decimal : Char → Option Nat
  ascii : ∀ d < 10, isDigit (Nat.digitChar d) = true ∧ decimal (Nat.digitChar d) = some d
  superscript : isDigit '²' = true ∧ decimal '²' = none

def UnicodeDigits.latin : UnicodeDigits where
  isDigit c := c.isDigit || c ∈ ['²', '³', '¹']
  decimal c := if c.isDigit then some (c.toNat - '0'.toNat) else none
  ascii := by decide
  superscript := by decide

/-- `csv.field_size_limit()`. -/
def fieldSizeLimit : Nat := 131072

def valueError (message : String) : PyException := .other "ValueError" message

def csvError : Csv.Error → PyException
  | .newlineInField =>
    .other "Error" "new-line character seen in unquoted field - do you need to open the file with newline=''?"
  | .fieldLimit limit => .other "Error" ("field larger than field limit (" ++ toString limit ++ ")")

def zeroDivision : PyException := .other "ZeroDivisionError" "division by zero"

def quotientOverflow : PyException := .other "OverflowError" "integer division result too large for a float"

/-- `/` on integers: the double nearest to the quotient. -/
def trueDivide (a b : Nat) : Except PyException ℚ :=
  if b = 0 then .error zeroDivision
  else if 2 ^ 1024 ≤ nearestDouble ((a : ℚ) / b) then .error quotientOverflow
  else .ok (nearestDouble ((a : ℚ) / b))

/-- The least quotient that no double is near enough to. -/
def floatLimit : Nat := 2 ^ 1024 - 2 ^ 970

theorem trueDivide_eq {a b : Nat} (positive : 0 < b) :
    trueDivide a b =
      if a < floatLimit * b then .ok (nearestDouble ((a : ℚ) / b)) else .error quotientOverflow := by
  have powers (m k : Nat) (order : k ≤ m) : ((2 ^ m - 2 ^ k : Nat) : ℚ) = 2 ^ (m : ℤ) - 2 ^ (k : ℤ) := by
    rw [Nat.cast_sub (Nat.pow_le_pow_right two_pos order), zpow_natCast, zpow_natCast]
    push_cast
    rfl
  have limit : (floatLimit : ℚ) = 2 ^ (1024 : ℤ) - 2 ^ ((1024 : ℤ) - 54) := powers 1024 970 (by decide)
  have divisor : (0 : ℚ) < b := by exact_mod_cast positive
  have nonneg : (0 : ℚ) ≤ (a : ℚ) / b := div_nonneg (Nat.cast_nonneg a) divisor.le
  have finite : nearestDouble ((a : ℚ) / b) < 2 ^ 1024 ↔ a < floatLimit * b := by
    have below := nearestDouble_lt_zpow nonneg (show (-1021 : ℤ) ≤ 1024 by decide)
    rw [← limit, div_lt_iff₀ divisor, zpow_ofNat, ← Nat.cast_mul, Nat.cast_lt] at below
    exact below
  rw [trueDivide, if_neg positive.ne']
  by_cases small : a < floatLimit * b
  · rw [if_pos small, if_neg (not_le.mpr (finite.mpr small))]
  · rw [if_neg small, if_pos (not_lt.mp (finite.not.mpr small))]

section Parsing

variable (u : UnicodeDigits)

/-- `int` of a text of digits. -/
def UnicodeDigits.int (digits : List Char) : Except PyException Nat :=
  let decimals := digits.takeWhile fun c => (u.decimal c).isSome
  if intMaxStrDigits < decimals.length then
    .error (valueError ("Exceeds the limit (" ++ toString intMaxStrDigits ++
      " digits) for integer string conversion: value has " ++ toString decimals.length ++
      " digits; use sys.set_int_max_str_digits() to increase the limit"))
  else if decimals.length < digits.length then
    .error (valueError ("invalid literal for int() with base 10: '" ++ String.ofList digits ++ "'"))
  else .ok (digits.foldl (fun n c => 10 * n + (u.decimal c).getD 0) 0)

def parseInt (value : List Char) : Except PyException Nat :=
  let digits := value.filter u.isDigit
  if digits.isEmpty then .ok 0 else u.int digits

def strip (value : List Char) : List Char := TextLines.strip isSpace value

def parseDevice (row : List (List Char)) : Except PyException (Option GPUDeviceSnapshot) :=
  if row.isEmpty || row.all fun value => (strip value).isEmpty then .ok none
  else
    match row.map strip with
    | index :: name :: memoryUsed :: memoryTotal :: utilization :: _ => do
      let index ← parseInt u index
      let memoryUsed ← parseInt u memoryUsed
      let memoryTotal ← parseInt u memoryTotal
      let utilization ← parseInt u utilization
      return some
        { index, name := String.ofList name, memoryUsedMb := memoryUsed, memoryTotalMb := memoryTotal
          utilizationPct := utilization }
    | _ => .ok none

def parseDevices : List (List (List Char)) → Except PyException (List GPUDeviceSnapshot)
  | [] => .ok []
  | row :: rows => do
    let device ← parseDevice u row
    let devices ← parseDevices rows
    return device.toList ++ devices

def parseNvidiaSmi (output : String) : Except PyException (List GPUDeviceSnapshot) := do
  let (rows, raised) := Csv.read fieldSizeLimit output.toList
  let gpus ← parseDevices u rows
  match raised with
  | none => return gpus
  | some error => .error (csvError error)

theorem parseDevice_short {row : List (List Char)} (short : row.length < 5) :
    parseDevice u row = .ok none := by
  unfold parseDevice
  split
  · rfl
  · match row, short with
    | [], _ => rfl
    | [_], _ => rfl
    | [_, _], _ => rfl
    | [_, _, _], _ => rfl
    | [_, _, _, _], _ => rfl

end Parsing

def unavailable (reason : String) : GPUSnapshot :=
  { status := "unavailable", source := "nvidia-smi", reason := some reason, gpuCount := 0, memoryUsedMb := 0
    memoryTotalMb := 0, utilizationPct := 0, gpus := [] }

inductive RunResult where
  | completed (returncode : Int) (stdout stderr : String)
  | timeoutExpired
  | osError (message : String)
  deriving DecidableEq, Repr

structure NvidiaSmiSampler where
  command : String := "nvidia-smi"
  timeoutS : ℚ := 1
  runner : Option (List String → ℚ → RunResult) := none

/-- The machine: which commands it has, and what running one with a timeout gives. -/
structure Machine where
  which : String → Bool
  run : List String → ℚ → RunResult

def Machine.stalled : Machine where
  which _ := true
  run _ _ := .timeoutExpired

namespace NvidiaSmiSampler

def queryFields : List String := ["index", "name", "memory.used", "memory.total", "utilization.gpu"]

variable (u : UnicodeDigits) (machine : Machine) (sampler : NvidiaSmiSampler)

def ending (result : RunResult) : NvidiaSmiSampler := { runner := some fun _ _ => result }

def args : List String :=
  [sampler.command, "--query-gpu=" ++ ",".intercalate queryFields, "--format=csv,noheader,nounits"]

/-- The result of the command, unless there is no such command. -/
def result : Option RunResult :=
  if sampler.runner.isNone && !machine.which sampler.command then none
  else some ((sampler.runner.getD machine.run) sampler.args sampler.timeoutS)

def summarize (gpus : List GPUDeviceSnapshot) : Except PyException GPUSnapshot := do
  let utilization ← trueDivide (gpus.map fun gpu => gpu.utilizationPct.toNat).sum gpus.length
  return {
    status := "available", source := "nvidia-smi", gpuCount := gpus.length
    memoryUsedMb := (gpus.map GPUDeviceSnapshot.memoryUsedMb).sum
    memoryTotalMb := (gpus.map GPUDeviceSnapshot.memoryTotalMb).sum
    utilizationPct := FloatText.roundHalfEven utilization, gpus }

def snapshot : Except PyException GPUSnapshot :=
  match sampler.result machine with
  | none => .ok (unavailable "nvidia-smi not found")
  | some .timeoutExpired => .ok (unavailable "nvidia-smi timed out")
  | some (.osError message) => .ok (unavailable message)
  | some (.completed returncode stdout stderr) =>
    if returncode ≠ 0 then
      let reason := strip stderr.toList
      .ok (unavailable (if reason.isEmpty then "nvidia-smi exited " ++ toString returncode else String.ofList reason))
    else do
      let gpus ← parseNvidiaSmi u stdout
      if gpus.isEmpty then return unavailable "no GPU data" else summarize gpus

end NvidiaSmiSampler

end LLMRuntime
