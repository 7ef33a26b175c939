import LLMRuntime.Foundation.Json

namespace Json

theorem run_nil (s : State) : run s [] = some s := rfl

theorem run_cons (s : State) (c : Char) (text : List Char) : run s (c :: text) = (step s c).bind (run · text) := rfl

theorem run_append (s : State) (first second : List Char) : run s (first ++ second) = (run s first).bind (run · second) :=
  List.foldlM_append

theorem run_of_step {s next : State} {c : Char} (stepped : step s c = some next) (text : List Char) :
    run s (c :: text) = run next text := by
  rw [run_cons, stepped, Option.bind_some]

theorem run_of_run {s next : State} {first : List Char} (read : run s first = some next) (second : List Char) :
    run s (first ++ second) = run next second := by
  rw [run_append, read, Option.bind_some]

/-- Where white space between tokens changes nothing. -/
def Mode.skips : Mode → Bool
  | .value | .key _ | .colon _ _ | .ended _ => true
  | _ => false

theorem step_ws {mode : Mode} (skips : mode.skips = true) (stack : List Frame) {c : Char} (space : isWs c = true) :
    step (mode, stack) c = some (mode, stack) := by
  cases mode with
  | value => simp [step, space]
  | key before => simp [step, space]
  | colon before key => simp [step, space]
  | ended v => simp [step, ended, space]
  | string role points escape => cases skips
  | number lexeme progress => cases skips
  | word left v => cases skips

theorem run_blank {mode : Mode} (skips : mode.skips = true) (stack : List Frame) {text : List Char} (blank : Blank text) :
    run (mode, stack) text = some (mode, stack) := by
  induction text with
  | nil => rfl
  | cons c text ih =>
    rw [run_of_step (step_ws skips stack (blank c List.mem_cons_self))]
    exact ih fun d member => blank d (List.mem_cons_of_mem c member)

section Strings

variable {text : List Char} {units : List Nat}

theorem run_units (inside : Units text units) (role : Role) (before : List Nat) (stack : List Frame) :
    run (.string role before .none, stack) text = some (.string role (units.foldl push before) .none, stack) := by
  induction inside generalizing before with
  | nil => rfl
  | @raw c text units visible unquoted plain rest ih =>
    have stepped : step (.string role before .none, stack) c = some (.string role (push before c.toNat) .none, stack) := by
      simp [step, stringStep, unquoted, plain, Nat.not_lt.mpr visible]
    rw [run_of_step stepped, ih]
    rfl
  | @letter c unit text units known rest ih =>
    have notU : c ≠ 'u' := by
      rintro rfl
      cases known
    have escaped : step (.string role before .none, stack) '\\' = some (.string role before .backslash, stack) := rfl
    have stepped : step (.string role before .backslash, stack) c = some (.string role (push before unit) .none, stack) := by
      simp [step, stringStep, notU, known]
    rw [run_of_step escaped, run_of_step stepped, ih]
    rfl
  | @hex a b c d w x y z text units first second third fourth rest ih =>
    have escaped : step (.string role before .none, stack) '\\' = some (.string role before .backslash, stack) := rfl
    have marked : step (.string role before .backslash, stack) 'u' = some (.string role before (.hex 0 0), stack) := rfl
    have one : step (.string role before (.hex 0 0), stack) a = some (.string role before (.hex 1 w), stack) := by
      simp [step, stringStep, first]
    have two : step (.string role before (.hex 1 w), stack) b =
        some (.string role before (.hex 2 (w * 16 + x)), stack) := by
      simp [step, stringStep, second]
    have three : step (.string role before (.hex 2 (w * 16 + x)), stack) c =
        some (.string role before (.hex 3 ((w * 16 + x) * 16 + y)), stack) := by
      simp [step, stringStep, third]
    have four : step (.string role before (.hex 3 ((w * 16 + x) * 16 + y)), stack) d =
        some (.string role (push before (((w * 16 + x) * 16 + y) * 16 + z)) .none, stack) := by
      simp [step, stringStep, fourth]
    rw [run_of_step escaped, run_of_step marked, run_of_step one, run_of_step two, run_of_step three,
      run_of_step four, ih]
    rfl

theorem run_string (inside : Units text units) (role : Role) (stack : List Frame) (rest : List Char) :
    run (.string role [] .none, stack) (text ++ '"' :: rest) = run (role.close (units.foldl push []), stack) rest := by
  rw [run_of_run (run_units inside role [] stack)]
  exact run_of_step (by simp [step]) rest

end Strings

section Numbers

theorem run_digits {source target : Progress} (enters : ∀ c : Char, c.isDigit = true → source.step c = some target)
    (keeps : ∀ c : Char, c.isDigit = true → target.step c = some target) {digits : List Char} (read : Digits digits)
    (lexeme : List Char) (stack : List Frame) :
    run (.number lexeme source, stack) digits = some (.number (lexeme ++ digits) target, stack) := by
  have later (more : List Char) (all : ∀ c ∈ more, c.isDigit = true) (lexeme : List Char) :
      run (.number lexeme target, stack) more = some (.number (lexeme ++ more) target, stack) := by
    induction more generalizing lexeme with
    | nil => rw [List.append_nil, run_nil]
    | cons c more ih =>
      have stepped : step (.number lexeme target, stack) c = some (.number (lexeme ++ [c]) target, stack) := by
        simp [step, keeps c (all c List.mem_cons_self)]
      rw [run_of_step stepped, ih fun d member => all d (List.mem_cons_of_mem c member)]
      rw [List.append_assoc, List.singleton_append]
  cases digits with
  | nil => exact absurd rfl read.1
  | cons c more =>
    have stepped : step (.number lexeme source, stack) c = some (.number (lexeme ++ [c]) target, stack) := by
      simp [step, enters c (read.2 c List.mem_cons_self)]
    rw [run_of_step stepped, later more fun d member => read.2 d (List.mem_cons_of_mem c member)]
    rw [List.append_assoc, List.singleton_append]

variable {stack : List Frame} {lexeme text : List Char} {progress : Progress}

theorem ne_of_isDigit {c d : Char} (digit : c.isDigit = true) (other : d.isDigit = false) : c ≠ d := by
  rintro rfl
  rw [digit] at other
  cases other

theorem step_number {next : Progress} {c : Char} (stepped : progress.step c = some next) :
    step (.number lexeme progress, stack) c = some (.number (lexeme ++ [c]) next, stack) := by
  simp [step, stepped]

theorem step_value_digit {c : Char} (digit : c.isDigit = true) (positive : c ≠ '0') :
    step (.value, stack) c = some (.number [c] .integer, stack) := by
  have other (d : Char) (no : d.isDigit = false) : c ≠ d := ne_of_isDigit digit no
  have space : isWs c = false := by
    simp [isWs, other ' ' (by decide), other '\t' (by decide), other '\n' (by decide), other '\r' (by decide)]
  simp [step, start, space, digit, positive, other '"' (by decide), other '[' (by decide), other '{' (by decide),
    other 'n' (by decide), other 't' (by decide), other 'f' (by decide), other 'N' (by decide),
    other 'I' (by decide), other '-' (by decide)]

theorem run_more_digits {digits : List Char} (all : ∀ c ∈ digits, c.isDigit = true) :
    run (.number lexeme .integer, stack) digits = some (.number (lexeme ++ digits) .integer, stack) := by
  cases digits with
  | nil => rw [List.append_nil, run_nil]
  | cons c digits =>
    have keeps (d : Char) (digit : d.isDigit = true) : Progress.integer.step d = some .integer := by
      simp [Progress.step, digit]
    exact run_digits keeps keeps ⟨List.cons_ne_nil _ _, all⟩ lexeme stack

theorem run_int {s : State} (zero : step s '0' = some (.number (lexeme ++ ['0']) .zero, stack))
    (positive : ∀ c : Char, c.isDigit = true → c ≠ '0' → step s c = some (.number (lexeme ++ [c]) .integer, stack))
    (read : IntText text) :
    ∃ progress, (progress = .zero ∨ progress = .integer) ∧
      run s text = some (.number (lexeme ++ text) progress, stack) := by
  rcases read with rfl | ⟨⟨nonempty, digits⟩, leading⟩
  · exact ⟨.zero, .inl rfl, by rw [run_of_step zero, run_nil]⟩
  · cases text with
    | nil => exact absurd rfl nonempty
    | cons c more =>
      have first : c ≠ '0' := fun same => leading (by rw [same]; rfl)
      refine ⟨.integer, .inr rfl, ?_⟩
      rw [run_of_step (positive c (digits c List.mem_cons_self) first)]
      rw [run_more_digits fun d member => digits d (List.mem_cons_of_mem c member)]
      rw [List.append_assoc, List.singleton_append]

theorem run_frac (lexeme : List Char) (stack : List Frame) (int : progress = .zero ∨ progress = .integer)
    (read : FracText text) :
    ∃ next, (next = .zero ∨ next = .integer ∨ next = .fraction) ∧
      run (.number lexeme progress, stack) text = some (.number (lexeme ++ text) next, stack) := by
  rcases read with rfl | ⟨digits, rfl, read⟩
  · refine ⟨progress, ?_, by rw [List.append_nil, run_nil]⟩
    rcases int with rfl | rfl
    · exact .inl rfl
    · exact .inr (.inl rfl)
  · have point : progress.step '.' = some .point := by
      rcases int with rfl | rfl <;> rfl
    have enters (c : Char) (digit : c.isDigit = true) : Progress.point.step c = some .fraction := by
      simp [Progress.step, digit]
    have keeps (c : Char) (digit : c.isDigit = true) : Progress.fraction.step c = some .fraction := by
      simp [Progress.step, digit]
    refine ⟨.fraction, .inr (.inr rfl), ?_⟩
    rw [run_of_step (step_number point), run_digits enters keeps read, List.append_assoc, List.singleton_append]

theorem run_exp (lexeme : List Char) (stack : List Frame)
    (mantissa : progress = .zero ∨ progress = .integer ∨ progress = .fraction) (read : ExpText text) :
    ∃ next, next.complete = true ∧
      run (.number lexeme progress, stack) text = some (.number (lexeme ++ text) next, stack) := by
  rcases read with rfl | ⟨e, sign, digits, rfl, letter, signs, read⟩
  · refine ⟨progress, ?_, by rw [List.append_nil, run_nil]⟩
    rcases mantissa with rfl | rfl | rfl <;> rfl
  · have marked : progress.step e = some .e := by
      rcases letter with rfl | rfl <;> rcases mantissa with rfl | rfl | rfl <;> rfl
    have keeps (c : Char) (digit : c.isDigit = true) : Progress.exponent.step c = some .exponent := by
      simp [Progress.step, digit]
    have unsigned (c : Char) (digit : c.isDigit = true) : Progress.e.step c = some .exponent := by
      simp [Progress.step, digit, ne_of_isDigit digit (by decide : '+'.isDigit = false), ne_of_isDigit digit (by decide : '-'.isDigit = false)]
    have signed (c : Char) (digit : c.isDigit = true) : Progress.sign.step c = some .exponent := by
      simp [Progress.step, digit]
    refine ⟨.exponent, rfl, ?_⟩
    rw [run_of_step (step_number marked)]
    rcases signs with rfl | rfl | rfl
    · rw [List.nil_append, run_digits unsigned keeps read, List.append_assoc, List.singleton_append]
    · have plus : Progress.e.step '+' = some .sign := rfl
      rw [List.singleton_append, run_of_step (step_number plus), run_digits signed keeps read]
      simp
    · have minus : Progress.e.step '-' = some .sign := rfl
      rw [List.singleton_append, run_of_step (step_number minus), run_digits signed keeps read]
      simp

theorem run_number (stack : List Frame) (read : NumberText text) :
    ∃ progress, progress.complete = true ∧ run (.value, stack) text = some (.number text progress, stack) := by
  obtain ⟨minus, int, frac, exp, rfl, signs, intText, fracText, expText⟩ := read
  have prefixed : ∃ progress, (progress = .zero ∨ progress = .integer) ∧
      run (.value, stack) (minus ++ int) = some (.number (minus ++ int) progress, stack) := by
    rcases signs with rfl | rfl
    · exact run_int rfl (fun c digit positive => step_value_digit digit positive) intText
    · have sign : step (.value, stack) '-' = some (.number ['-'] .minus, stack) := rfl
      rw [List.singleton_append, run_of_step sign]
      refine run_int rfl (fun c digit positive => step_number ?_) intText
      simp [Progress.step, digit, positive]
  obtain ⟨first, whole, readInt⟩ := prefixed
  obtain ⟨second, mantissa, readFrac⟩ := run_frac (minus ++ int) stack whole fracText
  obtain ⟨third, complete, readExp⟩ := run_exp (minus ++ int ++ frac) stack mantissa expText
  refine ⟨third, complete, ?_⟩
  rw [← List.append_assoc, run_of_run readInt, run_of_run readFrac, readExp]
  simp only [List.append_assoc]

end Numbers

section Completeness

/-- A value has been read: the decoder is past it, or in a number that may go on. -/
def Settled (v : Value) (stack : List Frame) (s : State) : Prop :=
  s = (.ended v, stack) ∨
    ∃ lexeme progress, progress.complete = true ∧ v = .num lexeme ∧ s = (.number lexeme progress, stack)

def follows (c : Char) : Bool := isWs c || c = ',' || c = ']' || c = '}'

theorem progress_follows {c : Char} (after : follows c = true) (progress : Progress) : progress.step c = none := by
  simp only [follows, isWs, List.mem_cons, List.not_mem_nil, or_false, Bool.or_eq_true, decide_eq_true_eq] at after
  rcases after with (((rfl | rfl | rfl | rfl) | rfl) | rfl) | rfl <;> cases progress <;> rfl

variable {v : Value} {stack : List Frame} {s : State}

theorem Settled.step (settled : Settled v stack s) {c : Char} (after : follows c = true) :
    Json.step s c = ended v stack c := by
  rcases settled with rfl | ⟨lexeme, progress, complete, rfl, rfl⟩
  · rfl
  · simp [Json.step, progress_follows after, complete]

theorem Settled.run_ws (settled : Settled v stack s) {c : Char} (space : isWs c = true) {r : List Char} (blank : Blank r) :
    run s (c :: r) = some (.ended v, stack) := by
  have stepped : Json.step s c = some (.ended v, stack) := by
    rw [settled.step (by simp [follows, space])]
    simp [ended, space]
  rw [run_of_step stepped]
  exact run_blank rfl stack blank

theorem Settled.run (settled : Settled v stack s) {r : List Char} (blank : Blank r) {d : Char} (after : follows d = true)
    {next : State} (moved : ended v stack d = some next) (rest : List Char) : run s (r ++ d :: rest) = run next rest := by
  cases r with
  | nil => exact run_of_step ((settled.step after).trans moved) rest
  | cons c r =>
    have spaces := settled.run_ws (blank c List.mem_cons_self) fun e member => blank e (List.mem_cons_of_mem c member)
    have stepped : Json.step (.ended v, stack) d = some next := moved
    rw [run_of_run spaces, run_of_step stepped]

theorem Settled.finish (settled : Settled v [] s) {r : List Char} (blank : Blank r) :
    (Json.run s r).bind finish = some v := by
  cases r with
  | nil =>
    rcases settled with rfl | ⟨lexeme, progress, complete, rfl, rfl⟩
    · rfl
    · simp [run_nil, Json.finish, complete]
  | cons c r =>
    rw [settled.run_ws (blank c List.mem_cons_self) fun e member => blank e (List.mem_cons_of_mem c member)]
    rfl

def Reads (text : List Char) : Part → Prop
  | .value v => ∀ stack, ∃ s, run (.value, stack) text = some s ∧ Settled v stack s
  | .items vs => ∀ before stack,
      run (.value, .items before :: stack) (text ++ [']']) = some (.ended (.arr (before ++ vs)), stack)
  | .members ms => ∀ before stack,
      run (.key before, stack) (text ++ ['}']) = some (.ended (.obj (before ++ ms)), stack)

theorem run_member {l name m n text rest : List Char} {units : List Nat} {v : Value} (left : Blank l)
    (key : Units name units) (colon : Blank m) (after : Blank n) (value : Reads text (.value v))
    (before : List (List Nat × Value)) (stack : List Frame) :
    ∃ s, Settled v (.members before (points units) :: stack) s ∧
      run (.key before, stack) (l ++ '"' :: (name ++ '"' :: (m ++ ':' :: (n ++ (text ++ rest))))) = run s rest := by
  obtain ⟨s, read, settled⟩ := value (.members before (points units) :: stack)
  have opened : step (.key before, stack) '"' = some (.string (.key before) [] .none, stack) := rfl
  have named : step (.colon before (points units), stack) ':' =
      some (.value, .members before (points units) :: stack) := rfl
  refine ⟨s, settled, ?_⟩
  rw [run_of_run (run_blank rfl stack left), run_of_step opened, run_string key]
  change run (.colon before (points units), stack) (m ++ ':' :: (n ++ (text ++ rest))) = run s rest
  rw [run_of_run (run_blank rfl stack colon), run_of_step named, run_of_run (run_blank rfl _ after), run_of_run read]

/-- The decoder reads whatever the grammar derives. -/
theorem Encodes.reads {text : List Char} {part : Part} (derived : Encodes text part) : Reads text part := by
  induction derived with
  | null => exact fun stack => ⟨_, rfl, .inl rfl⟩
  | boolean b => cases b <;> exact fun stack => ⟨_, rfl, .inl rfl⟩
  | number digits =>
    intro stack
    obtain ⟨progress, complete, read⟩ := run_number stack digits
    exact ⟨_, read, .inr ⟨_, progress, complete, rfl, rfl⟩⟩
  | @string text units inside =>
    intro stack
    have opened : step (.value, stack) '"' = some (.string .value [] .none, stack) := rfl
    refine ⟨(.ended (.str (points units)), stack), ?_, .inl rfl⟩
    rw [run_of_step opened, run_string inside]
    rfl
  | @emptyArray w blank =>
    intro stack
    have opened : step (.value, stack) '[' = some (.value, .items [] :: stack) := rfl
    refine ⟨(.ended (.arr []), stack), ?_, .inl rfl⟩
    rw [run_of_step opened, run_of_run (run_blank rfl _ blank)]
    rfl
  | @array text vs inside ih =>
    intro stack
    have opened : step (.value, stack) '[' = some (.value, .items [] :: stack) := rfl
    refine ⟨(.ended (.arr vs), stack), ?_, .inl rfl⟩
    rw [run_of_step opened, ih]
    rfl
  | @emptyObject w blank =>
    intro stack
    have opened : step (.value, stack) '{' = some (.key [], stack) := rfl
    refine ⟨(.ended (.obj []), stack), ?_, .inl rfl⟩
    rw [run_of_step opened, run_of_run (run_blank rfl _ blank)]
    rfl
  | @object text ms inside ih =>
    intro stack
    have opened : step (.value, stack) '{' = some (.key [], stack) := rfl
    refine ⟨(.ended (.obj ms), stack), ?_, .inl rfl⟩
    rw [run_of_step opened, ih]
    rfl
  | @item l text r v left value right ih =>
    intro before stack
    obtain ⟨s, read, settled⟩ := ih (.items before :: stack)
    have moved : ended v (.items before :: stack) ']' = some (.ended (.arr (before ++ [v])), stack) := rfl
    rw [List.append_assoc, List.append_assoc, run_of_run (run_blank rfl _ left), run_of_run read]
    exact settled.run right rfl moved []
  | @items l text r more v vs left value right rest ihValue ihRest =>
    intro before stack
    obtain ⟨s, read, settled⟩ := ihValue (.items before :: stack)
    have moved : ended v (.items before :: stack) ',' = some (.value, .items (before ++ [v]) :: stack) := rfl
    simp only [List.append_assoc, List.cons_append]
    rw [run_of_run (run_blank rfl _ left), run_of_run read, settled.run right rfl moved, ihRest]
    simp
  | @member l name m n text r units v left key colon after value right ih =>
    intro before stack
    obtain ⟨s, settled, read⟩ := run_member left key colon after ih before stack
    have moved : ended v (.members before (points units) :: stack) '}' =
        some (.ended (.obj (before ++ [(points units, v)])), stack) := rfl
    simp only [List.append_assoc, List.cons_append]
    rw [read]
    exact settled.run right rfl moved []
  | @members l name m n text r more units v ms left key colon after value right rest ihValue ihRest =>
    intro before stack
    obtain ⟨s, settled, read⟩ := run_member left key colon after ihValue before stack
    have moved : ended v (.members before (points units) :: stack) ',' =
        some (.key (before ++ [(points units, v)]), stack) := rfl
    simp only [List.append_assoc, List.cons_append]
    rw [read, settled.run right rfl moved, ihRest]
    simp

theorem decode_of_isText {text : List Char} {v : Value} (encoded : IsText text v) : decode text = some v := by
  obtain ⟨l, inner, r, rfl, left, derived, right⟩ := encoded
  obtain ⟨s, read, settled⟩ := derived.reads []
  rw [decode, run_of_run (run_blank rfl [] left), run_of_run read]
  exact settled.finish right

end Completeness

section Prefixes

theorem run_of_ended {v : Value} {text : List Char} {s : State} (read : run (.ended v, []) text = some s) :
    Blank text ∧ s = (.ended v, []) := by
  induction text with
  | nil => exact ⟨by simp [Blank], (Option.some.inj read).symm⟩
  | cons c text ih =>
    by_cases space : isWs c = true
    · rw [run_of_step (step_ws rfl [] space)] at read
      obtain ⟨blank, same⟩ := ih read
      refine ⟨fun d member => ?_, same⟩
      rcases List.mem_cons.mp member with rfl | later
      · exact space
      · exact blank d later
    · have stuck : step (.ended v, []) c = none := by simp [step, ended, space]
      rw [run_cons, stuck] at read
      cases read

def Numeric (s : State) : Prop :=
  (∃ lexeme progress, progress ≠ .minus ∧ s = (.number lexeme progress, [])) ∨ ∃ lexeme, s = (.ended (.num lexeme), [])

theorem Progress.step_ne_minus {progress next : Progress} {c : Char} (stepped : progress.step c = some next) :
    next ≠ .minus := by
  rintro rfl
  unfold Progress.step at stepped
  split at stepped <;> (repeat' split at stepped) <;> cases stepped

theorem ended_empty {v : Value} {c : Char} {s : State} (stepped : ended v [] c = some s) : s = (.ended v, []) := by
  unfold ended at stepped
  split at stepped
  · exact (Option.some.inj stepped).symm
  · cases stepped

theorem Numeric.step {s next : State} {c : Char} (numeric : Numeric s) (stepped : Json.step s c = some next) :
    Numeric next := by
  rcases numeric with ⟨lexeme, progress, started, rfl⟩ | ⟨lexeme, rfl⟩
  · simp only [Json.step] at stepped
    cases moved : progress.step c with
    | some further =>
      rw [moved] at stepped
      cases stepped
      exact .inl ⟨_, further, Progress.step_ne_minus moved, rfl⟩
    | none =>
      rw [moved] at stepped
      dsimp only at stepped
      split at stepped
      · exact .inr ⟨lexeme, ended_empty stepped⟩
      · simp [started] at stepped
  · exact .inr ⟨lexeme, ended_empty stepped⟩

theorem Numeric.run {s last : State} {text : List Char} (numeric : Numeric s) (read : Json.run s text = some last) :
    Numeric last := by
  induction text generalizing s with
  | nil => exact Option.some.inj read ▸ numeric
  | cons c text ih =>
    rw [run_cons] at read
    obtain ⟨next, stepped, later⟩ := Option.bind_eq_some_iff.mp read
    exact ih (numeric.step stepped) later

theorem Numeric.finish {s : State} (numeric : Numeric s) {v : Value} (done : Json.finish s = some v) :
    ∃ lexeme, v = .num lexeme := by
  rcases numeric with ⟨lexeme, progress, -, rfl⟩ | ⟨lexeme, rfl⟩
  · simp only [Json.finish] at done
    split at done
    · cases done
      exact ⟨lexeme, rfl⟩
    · cases done
  · cases done
    exact ⟨lexeme, rfl⟩

theorem finish_cases {s : State} {v : Value} (done : finish s = some v) : s = (.ended v, []) ∨ Numeric s := by
  unfold finish at done
  split at done
  · cases done
    exact .inl rfl
  · next lexeme progress =>
    split at done
    · next complete =>
      refine .inr (.inl ⟨lexeme, progress, ?_, rfl⟩)
      rintro rfl
      cases complete
    · cases done
  · cases done

/-- No proper part of the text of an object is a text: only white space can be missing at its end. -/
theorem blank_of_decode {first rest : List Char} {ms : List (List Nat × Value)} {v : Value}
    (whole : decode (first ++ rest) = some (.obj ms)) (part : decode first = some v) : Blank rest := by
  unfold decode at whole part
  obtain ⟨s, read, done⟩ := Option.bind_eq_some_iff.mp part
  rw [run_of_run read] at whole
  obtain ⟨last, later, finished⟩ := Option.bind_eq_some_iff.mp whole
  rcases finish_cases done with rfl | numeric
  · exact (run_of_ended later).1
  · obtain ⟨lexeme, same⟩ := (numeric.run later).finish finished
    cases same

end Prefixes

section Limits

variable {python : Interpreter} {text : List Char} {v : Value}

theorem loads_eq_some : loads python text = some v ↔ decode text = some v ∧ v.Fits python := by
  rw [loads, Option.filter_eq_some_iff, Bool.and_eq_true, decide_eq_true_eq]
  rfl

theorem loads_of_isText (encoded : IsText text v) (fits : v.Fits python) : loads python text = some v :=
  loads_eq_some.mpr ⟨decode_of_isText encoded, fits⟩

theorem loads_beyond (encoded : IsText text v) (beyond : ¬ v.Fits python) : loads python text = none := by
  cases read : loads python text with
  | none => rfl
  | some w =>
    rcases loads_eq_some.mp read with ⟨decoded, fits⟩
    rw [decode_of_isText encoded] at decoded
    cases decoded
    exact absurd fits beyond

theorem loads_of_decode_none (unread : decode text = none) : loads python text = none := by
  rw [loads, unread]
  rfl

end Limits

end Json
