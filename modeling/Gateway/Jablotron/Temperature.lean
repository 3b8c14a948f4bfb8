import Gateway.Jablotron.Parser
import Gateway.Schemes.Decimal

/-! @src jablotron/JablotronDeviceManager.cpp | name:Temperatures of the TP-82N | family:formats

    A thermostat reports the temperature that is set and the one that it measures, as `SET:` or `INT:`
    and a numeral. Which of the two it is is read off the token, but the number is cut out of the line:
    the four characters from the column where the numeral begins. A shorter numeral brings the
    characters behind it into the number, a longer one loses its end. So it is read as meant exactly if
    the line goes on for four characters, what they hold behind the numeral is skipped by the parser,
    and what is lost of the numeral are zeros behind the point, or digits too small for a double
    (`temperature_read_iff`). -/

namespace BeeeOn.JablotronDeviceManager
open Schemes
variable {V α β : Type}

/-- The two kinds of lines. -/
def kind (requested : Bool) : String := if requested then "SET" else "INT"

def temperatureModuleID (requested : Bool) : ModuleID :=
  if requested then TP82N_REQUESTD_ROOM_TEMPERATURE else TP82N_CURRENT_ROOM_TEMPERATURE

def temperatureLine (serial : String) (requested : Bool) (t rest : String) : String :=
  "[" ++ serial ++ "] TP-82N " ++ kind requested ++ ":" ++ t ++ " " ++ rest

/-- The four characters from the beginning of the numeral on. -/
def window (t rest : String) : String := String.ofList ((t ++ " " ++ rest).toList.take 4)

/-- The line is parsed, and what it says of the module is `x`. -/
def Reads (B : Base V) (P : Platform V) (message : String) (m : ModuleID) (x : V) : Prop :=
  ∀ s : Pending V, ∃ data,
    ((parseMessageFromDevice B P message (StringTokenizer message ' ')).run.run s).1 = .ok data ∧
      (⟨m, x, true⟩ : SensorValue V) ∈ data.values

/-! ### Tokens -/

theorem tokenizer_append {sep : Char} {as bs : List Char} (h : sep ∉ as) :
    StringTokenizer (String.ofList (as ++ sep :: bs)) sep =
      String.ofList as :: (bs.splitOn sep).map String.ofList := by
  rw [StringTokenizer, String.toList_ofList, if_neg (by simp),
    List.splitOn_append_cons_self_of_not_mem h,
    List.map_cons]

theorem ok_bind (a : α) (f : α → Except Exn β) : (Except.ok a >>= f) = f a := rfl

theorem lift_ok_bind {x : Except Exn α} {a : α} (h : x = .ok a) (f : α → Parse V β) :
    (liftM x >>= f) = f a := by
  subst h
  rfl

/-! ### The line -/

section
variable {serial t rest : String} {requested : Bool}

theorem toList_line : (temperatureLine serial requested t rest).toList =
    ('[' :: serial.toList ++ [']']) ++ ' ' :: ("TP-82N".toList ++ ' ' ::
      (((kind requested).toList ++ ':' :: t.toList) ++ ' ' :: rest.toList)) := by
  have h0 : "[".toList = ['['] := rfl
  have h1 : "] TP-82N ".toList = ']' :: ' ' :: ("TP-82N".toList ++ [' ']) := rfl
  have h2 : ":".toList = [':'] := rfl
  have h3 : " ".toList = [' '] := rfl
  simp only [temperatureLine, String.toList_append, h0, h1, h2, h3]
  simp

/-- The tokens of the line: the serial number in brackets, the name, the kind with the numeral. -/
theorem tokens_line (requested : Bool) (rest : String) (hserial : ' ' ∉ serial.toList)
    (ht : ' ' ∉ t.toList) :
    StringTokenizer (temperatureLine serial requested t rest) ' ' =
      String.ofList ('[' :: serial.toList ++ [']']) :: "TP-82N" ::
        String.ofList ((kind requested).toList ++ ':' :: t.toList) ::
          (rest.toList.splitOn ' ').map String.ofList := by
  have hkind : ' ' ∉ (kind requested).toList := by cases requested <;> decide
  have hline : temperatureLine serial requested t rest = String.ofList _ :=
    (String.ofList_toList).symm.trans (congrArg String.ofList toList_line)
  rw [hline, tokenizer_append (by simp [hserial]), List.splitOn_append_cons_self_of_not_mem (by decide),
    List.splitOn_append_cons_self_of_not_mem (by simp [hkind, ht]), List.map_cons, List.map_cons,
    String.ofList_toList]

theorem drop_line (requested : Bool) (t rest : String) (hserial : serial.toList.length = 8) :
    (temperatureLine serial requested t rest).toList.drop 22 = (t ++ " " ++ rest).toList := by
  have hkind : (kind requested).toList.length = 3 := by cases requested <;> rfl
  rw [toList_line, String.toList_append, String.toList_append]
  have hsplit : ('[' :: serial.toList ++ [']']) ++ ' ' :: ("TP-82N".toList ++ ' ' ::
      (((kind requested).toList ++ ':' :: t.toList) ++ ' ' :: rest.toList)) =
      ('[' :: serial.toList ++ [']', ' '] ++ "TP-82N".toList ++ [' '] ++ (kind requested).toList ++
        [':']) ++ (t.toList ++ " ".toList ++ rest.toList) := by
    simp
  rw [hsplit, List.drop_left']
  simp [hserial, hkind]

theorem length_line (hserial : serial.toList.length = 8) :
    (temperatureLine serial requested t rest).toList.length =
      22 + (t ++ " " ++ rest).toList.length := by
  have hlen := congrArg List.length (drop_line requested t rest hserial)
  have hpos : 0 < (t ++ " " ++ rest).toList.length := by
    simp only [String.toList_append, List.length_append]
    have : " ".toList.length = 1 := rfl
    omega
  rw [List.length_drop] at hlen
  omega

variable {B : Base V} {P : Platform V} {k n : ℕ} {x : V}

/-- The number is what the window says, under the module of the kind. -/
theorem parseMessageFromTP82N_line (hserial : serial.toList.length = 8) :
    parseMessageFromTP82N B (temperatureLine serial requested t rest)
        (String.ofList ((kind requested).toList ++ ':' :: t.toList)) =
      if 4 ≤ (t ++ " " ++ rest).toList.length then
        (B.parseFloat (window t rest)).map fun y => ⟨temperatureModuleID requested, y, true⟩
      else .error .invalidArgument := by
  have hkind : ':' ∉ (kind requested).toList := by cases requested <;> decide
  have hsub : substr (temperatureLine serial requested t rest) 22 4 = window t rest := by
    rw [substr, drop_line requested t rest hserial, window]
  have htoken : token (StringTokenizer (String.ofList ((kind requested).toList ++ ':' :: t.toList))
      ':') 0 = .ok (kind requested) := by
    rw [tokenizer_append hkind, String.ofList_toList]
    rfl
  rw [parseMessageFromTP82N, length_line hserial]
  by_cases hlen : 4 ≤ (t ++ " " ++ rest).toList.length
  · rw [if_neg (by omega), if_pos hlen, hsub, htoken]
    dsimp only
    cases requested <;> cases B.parseFloat (window t rest) <;> rfl
  · rw [if_pos (by omega), if_neg hlen]
    rfl

/-- The eight characters of the serial number in its brackets. -/
theorem getSerialNumber_bracketed (hlen : serial.toList.length = 8) (hsn : B.parseUnsigned serial = .ok k) :
    getSerialNumber B (String.ofList ('[' :: serial.toList ++ [']'])) = .ok (BitVec.ofNat 32 k) := by
  have hsub : substr (String.ofList ('[' :: serial.toList ++ [']'])) 1 8 = serial := by
    rw [substr, String.toList_ofList, List.cons_append, List.drop_succ_cons, List.drop_zero, ← hlen,
      List.take_left', String.ofList_toList]
    rfl
  rw [getSerialNumber, hsub, hsn, if_neg (by simp [hlen])]
  rfl

/-- The line is one of a thermostat, up to its temperature: `k` is the serial number, and `n` what is
    read of the battery. -/
structure OfThermostat (B : Base V) (P : Platform V) (serial t rest : String) (requested : Bool)
    (k n : ℕ) : Prop where
  length : serial.toList.length = 8
  serial_space : ' ' ∉ serial.toList
  numeral_space : ' ' ∉ t.toList
  number : B.parseUnsigned serial = .ok k
  type : getDeviceType (BitVec.ofNat 32 k) = .tp82n
  battery : (token (StringTokenizer (temperatureLine serial requested t rest) ' ') 3 >>=
    getBatteryStatus B P) = .ok n

/-- The line is parsed up to its temperature. -/
theorem OfThermostat.parse (h : OfThermostat B P serial t rest requested k n) (s : Pending V) :
    ((parseMessageFromDevice B P (temperatureLine serial requested t rest)
        (StringTokenizer (temperatureLine serial requested t rest) ' ')).run.run s).1 =
      (parseMessageFromTP82N B (temperatureLine serial requested t rest)
        (String.ofList ((kind requested).toList ++ ':' :: t.toList))).map fun v =>
          ⟨createDeviceID P (BitVec.ofNat 32 k), [sensorValue P RC86K_BATTERY_STATE n, v]⟩ := by
  have htokens := tokens_line requested rest h.serial_space h.numeral_space
  have h0 : token (StringTokenizer (temperatureLine serial requested t rest) ' ') 0 =
      .ok (String.ofList ('[' :: serial.toList ++ [']'])) := by rw [htokens]; rfl
  have h2 : token (StringTokenizer (temperatureLine serial requested t rest) ' ') 2 =
      .ok (String.ofList ((kind requested).toList ++ ':' :: t.toList)) := by rw [htokens]; rfl
  have hnumber := getSerialNumber_bracketed h.length h.number
  have hbattery := h.battery
  obtain ⟨battery, h3, hstatus⟩ : ∃ battery,
      token (StringTokenizer (temperatureLine serial requested t rest) ' ') 3 = .ok battery ∧
        getBatteryStatus B P battery = .ok n := by
    cases h3 : token (StringTokenizer (temperatureLine serial requested t rest) ' ') 3 with
    | error e => rw [h3] at hbattery; cases hbattery
    | ok battery => rw [h3] at hbattery; exact ⟨battery, rfl, hbattery⟩
  have htype := h.type
  generalize StringTokenizer (temperatureLine serial requested t rest) ' ' = ts at *
  rw [parseMessageFromDevice, lift_ok_bind h0, lift_ok_bind hnumber, htype]
  dsimp only
  rw [if_neg (by decide), lift_ok_bind h3, lift_ok_bind hstatus, parseByType, lift_ok_bind h2]
  cases parseMessageFromTP82N B (temperatureLine serial requested t rest)
    (String.ofList ((kind requested).toList ++ ':' :: t.toList)) <;> rfl

/-- The battery has a module of its own, so what is read of the other is what its parser says. -/
theorem OfThermostat.reads_iff_parse (h : OfThermostat B P serial t rest requested k n) :
    Reads B P (temperatureLine serial requested t rest) (temperatureModuleID requested) x ↔
      parseMessageFromTP82N B (temperatureLine serial requested t rest)
        (String.ofList ((kind requested).toList ++ ':' :: t.toList)) =
          .ok ⟨temperatureModuleID requested, x, true⟩ := by
  have hother : (⟨temperatureModuleID requested, x, true⟩ : SensorValue V) ≠
      sensorValue P RC86K_BATTERY_STATE n := by
    intro heq
    have hmodule := congrArg SensorValue.moduleID heq
    cases requested <;> cases hmodule
  have hpending : Nonempty (Pending V) := ⟨false, ⟨⟨0⟩, x, true⟩⟩
  simp only [Reads, h.parse]
  cases parseMessageFromTP82N B (temperatureLine serial requested t rest)
      (String.ofList ((kind requested).toList ++ ':' :: t.toList)) with
  | error e => simp [Except.map]
  | ok v => simp [Except.map, hother, eq_comm]

/-- What is read of the line is `x` exactly if its window is `x`. -/
theorem OfThermostat.reads_iff (h : OfThermostat B P serial t rest requested k n) :
    Reads B P (temperatureLine serial requested t rest) (temperatureModuleID requested) x ↔
      4 ≤ (t ++ " " ++ rest).toList.length ∧ B.parseFloat (window t rest) = .ok x := by
  rw [h.reads_iff_parse, parseMessageFromTP82N_line h.length]
  split_ifs with h4
  · rw [and_iff_right h4]
    cases B.parseFloat (window t rest) <;> simp [Except.map]
  · exact iff_of_false (by simp) fun hread => h4 hread.1

end

/-! ### The numeral in its columns -/

/-- What is documented of `parseFloat`: a decimal numeral, perhaps with a point at its end and with
    characters behind it that are skipped, is read as the double of its value; with anything else
    behind a space it is a `SyntaxException`, as is a sign alone. The double follows the order of the
    numbers, and tells decimals of up to fifteen digits apart. -/
structure ReadsDecimals (B : Base V) (double : Bool → ℚ → Except Exn V) (skipped : Char → Prop) :
    Prop where
  space : skipped ' '
  reads : ∀ (t : Decimal) (point : Bool) (behind : List Char), t.digits ≠ [] ∨ t.fraction ≠ [] →
    point = true ∨ t.fraction = [] → (∀ c ∈ behind, skipped c) →
    B.parseFloat (String.ofList (t.chars point ++ behind)) = double t.minus t.magnitude
  stops : ∀ (t : Decimal) (behind : List Char), t.digits ≠ [] ∨ t.fraction ≠ [] →
    (¬ ∀ c ∈ behind, skipped c) →
    B.parseFloat (String.ofList (t.text ++ ' ' :: behind)) = .error .syntaxError
  empty : ∀ minus, B.parseFloat (String.ofList (Decimal.sign minus)) = .error .syntaxError
  convex : ∀ {minus : Bool} {q r u : ℚ} {x : V}, q ≤ r → r ≤ u → double minus q = .ok x →
    double minus u = .ok x → double minus r = .ok x
  apart : ∀ {minus : Bool} {p m n : ℕ} {x : V}, p ≤ 300 → m < 10 ^ 15 → n < 10 ^ 15 →
    double minus (m / 10 ^ p) = .ok x → double minus (n / 10 ^ p) = .ok x → m = n

/-- The columns of the number behind its sign. -/
def columns (t : Decimal) : ℕ := 4 - (Decimal.sign t.minus).length

/-- The digits behind the point that the columns do not hold. -/
def lost (t : Decimal) : List (Fin 10) := t.fraction.drop (columns t - t.digits.length - 1)

/-- Nothing is lost that counts: no digit in front of the point, unless they are all zero, and behind it
    only zeros as far as the eleventh place. What stands behind that place is too small to change the
    double of the numeral. -/
structure Kept (double : Bool → ℚ → Except Exn V) (t : Decimal) : Prop where
  digits : t.Fits (columns t)
  places : ∀ d ∈ lost (t.upTo 11), d = 0
  tail : double t.minus (t.upTo 11).magnitude = double t.minus t.magnitude

section
variable {B : Base V} {double : Bool → ℚ → Except Exn V} {skipped : Char → Prop} {t : Decimal}
  {x : V}

theorem two_le_columns (t : Decimal) : 2 ≤ columns t ∧ columns t ≤ 4 := by
  obtain ⟨minus, ds, fs⟩ := t
  cases minus <;> simp [columns, Decimal.sign]

/-- The number in the columns is at most four digits, so it and its successor at the eleventh place
    are told apart. -/
theorem ReadsDecimals.cut_apart (hB : ReadsDecimals B double skipped)
    (hcut : double t.minus (t.cut (columns t)).magnitude = .ok x) :
    double t.minus ((t.cut (columns t)).magnitude + 1 / 10 ^ 11) ≠ .ok x := by
  intro hnext
  have hcolumns := two_le_columns t
  have hlen : (t.cut (columns t)).digits.length + (t.cut (columns t)).fraction.length ≤ columns t :=
    Decimal.length_cut _ t
  obtain ⟨m, hm, hlt⟩ := Decimal.magnitude_eq_div (p := 11) (hlen.trans hcolumns.2)
    (by omega : (t.cut (columns t)).fraction.length ≤ 11)
  have hpos : 0 < 10 ^ (11 - (t.cut (columns t)).fraction.length) := Nat.pow_pos (by decide)
  have hfour : 10 ^ 1 ≤ 10 ^ (11 - (t.cut (columns t)).fraction.length) :=
    Nat.pow_le_pow_right (by decide) (by omega)
  have hsucc : (m : ℚ) / 10 ^ 11 + 1 / 10 ^ 11 = ((m + 1 : ℕ) : ℚ) / 10 ^ 11 := by
    push_cast
    ring
  rw [hm] at hcut hnext
  rw [hsucc] at hnext
  have heq := hB.apart (by decide) (by omega) (by omega) hcut hnext
  omega

/-- The columns hold the same number exactly if nothing is lost that counts. -/
theorem ReadsDecimals.cut_iff (hB : ReadsDecimals B double skipped)
    (ht : double t.minus t.magnitude = .ok x) :
    double t.minus (t.cut (columns t)).magnitude = .ok x ↔ Kept double t := by
  have hplaces : columns t ≤ 11 + 1 := (two_le_columns t).2.trans (by decide)
  constructor
  · intro hcut
    have hfits : t.Fits (columns t) ∧ ∀ d ∈ lost (t.upTo 11), d = 0 := by
      by_contra hlost
      have hle := Decimal.magnitude_cut_add_le hlost
      exact hB.cut_apart hcut (hB.convex (le_add_of_nonneg_right (by positivity)) hle hcut ht)
    rw [Decimal.magnitude_cut_upTo hplaces hfits.1 hfits.2] at hcut
    exact ⟨hfits.1, hfits.2, hcut.trans ht.symm⟩
  · rintro ⟨hdigits, hlost, htail⟩
    rw [Decimal.magnitude_cut_upTo hplaces hdigits hlost, htail, ht]

/-- For a numeral of no more than eleven places the characters say it all. -/
theorem kept_iff_of_length_le (hlen : t.fraction.length ≤ 11) :
    Kept double t ↔ t.Fits (columns t) ∧ ∀ d ∈ lost t, d = 0 := by
  have hwhole : t.upTo 11 = t := by rw [Decimal.upTo, List.take_of_length_le hlen]
  constructor
  · rintro ⟨hdigits, hlost, -⟩
    rw [hwhole] at hlost
    exact ⟨hdigits, hlost⟩
  · rintro ⟨hdigits, hlost⟩
    exact ⟨hdigits, by rwa [hwhole], by rw [hwhole]⟩

theorem no_space_text (t : Decimal) : ' ' ∉ t.text := by
  have hdigit : ∀ d : Fin 10, Decimal.digitChar d ≠ ' ' := by decide
  have hmap (ds : List (Fin 10)) : ' ' ∉ ds.map Decimal.digitChar := by
    rw [List.mem_map, not_exists]
    exact fun d hd => hdigit d hd.2
  have hsign : ' ' ∉ Decimal.sign t.minus := by cases t.minus <;> decide
  rw [Decimal.text, Decimal.chars, List.mem_append, List.mem_append, not_or, not_or]
  refine ⟨⟨hsign, hmap _⟩, ?_⟩
  split_ifs
  · simp [hmap]
  · simp

/-- The window is what the columns hold of the numeral, and what stands behind a shorter one. -/
theorem toList_window (t : Decimal) (rest : String) :
    (window (String.ofList t.text) rest).toList =
      t.text.take 4 ++ (' ' :: rest.toList).take (4 - t.text.length) := by
  have hspace : " ".toList = [' '] := rfl
  rw [window, String.toList_ofList, String.toList_append, String.toList_append, String.toList_ofList,
    hspace, List.append_assoc, List.take_append, List.singleton_append]

/-- The characters behind a short numeral are skipped, or nothing is read. -/
theorem ReadsDecimals.window_iff (hB : ReadsDecimals B double skipped)
    (hsome : t.digits ≠ [] ∨ t.fraction ≠ []) (rest : String) :
    B.parseFloat (window (String.ofList t.text) rest) = .ok x ↔
      (∀ c ∈ rest.toList.take (3 - t.text.length), skipped c) ∧
        double t.minus (t.cut (columns t)).magnitude = .ok x := by
  have hcolumns := two_le_columns t
  have hwindow : window (String.ofList t.text) rest = String.ofList _ :=
    String.ofList_toList.symm.trans (congrArg String.ofList (toList_window t rest))
  obtain ⟨point, hpoint, htext⟩ := Decimal.take_text (columns t) t
  have hfour : (Decimal.sign t.minus).length + columns t = 4 := by
    rw [columns] at hcolumns ⊢
    omega
  rw [hfour] at htext
  by_cases hskip : ∀ c ∈ rest.toList.take (3 - t.text.length), skipped c
  · have hbehind : ∀ c ∈ (' ' :: rest.toList).take (4 - t.text.length), skipped c := by
      by_cases hlong : 4 ≤ t.text.length
      · simp [Nat.sub_eq_zero_of_le hlong]
      · rw [show 4 - t.text.length = 3 - t.text.length + 1 by omega, List.take_succ_cons,
          List.forall_mem_cons]
        exact ⟨hB.space, hskip⟩
    rw [and_iff_right hskip, hwindow, htext,
      hB.reads _ point _ (Decimal.cut_nonempty hcolumns.1 hsome) hpoint hbehind]
    rfl
  · have hshort : ¬ 3 ≤ t.text.length := fun hle => hskip (by simp [Nat.sub_eq_zero_of_le hle])
    rw [hwindow, List.take_of_length_le (by omega),
      show 4 - t.text.length = 3 - t.text.length + 1 by omega, List.take_succ_cons,
      hB.stops t _ hsome hskip]
    exact iff_of_false (by simp) fun h => hskip h.1

end

section
variable {B : Base V} {P : Platform V} {double : Bool → ℚ → Except Exn V} {skipped : Char → Prop}
  {serial rest : String} {requested : Bool} {k n : ℕ} {x : V}

/-- For every numeral, of either kind: the temperature is read as meant exactly if the line reaches as
    far as the columns, they hold nothing behind the numeral that is not skipped, and they lose
    nothing of it that counts. -/
theorem temperature_read_iff (hB : ReadsDecimals B double skipped)
    (hlen : serial.toList.length = 8) (hdigits : ∀ c ∈ serial.toList, c.isDigit = true)
    (hsn : B.parseUnsigned serial = .ok k) (htype : getDeviceType (BitVec.ofNat 32 k) = .tp82n)
    (t : Decimal) (hx : B.parseFloat (String.ofList t.text) = .ok x)
    (hbattery : (token (StringTokenizer
      (temperatureLine serial requested (String.ofList t.text) rest) ' ') 3 >>=
        getBatteryStatus B P) = .ok n) :
    Reads B P (temperatureLine serial requested (String.ofList t.text) rest)
        (temperatureModuleID requested) x ↔
      3 ≤ t.text.length + rest.toList.length ∧
        (∀ c ∈ rest.toList.take (3 - t.text.length), skipped c) ∧ Kept double t := by
  have hserial : ' ' ∉ serial.toList := fun hmem => by
    have hspace := hdigits ' ' hmem
    cases hspace
  have hline : OfThermostat B P serial (String.ofList t.text) rest requested k n :=
    ⟨hlen, hserial, by rw [String.toList_ofList]; exact no_space_text t, hsn, htype, hbattery⟩
  have hsome : t.digits ≠ [] ∨ t.fraction ≠ [] := by
    by_contra hnone
    rw [not_or, not_not, not_not] at hnone
    have hsign : t.text = Decimal.sign t.minus := by
      simp [Decimal.text, Decimal.chars, hnone.1, hnone.2]
    rw [hsign, hB.empty] at hx
    cases hx
  have hvalue : double t.minus t.magnitude = .ok x := by
    rw [← hx, ← List.append_nil t.text, Decimal.text]
    refine (hB.reads t _ [] hsome ?_ (by simp)).symm
    by_cases hf : t.fraction = []
    · exact Or.inr hf
    · exact Or.inl (by simpa using hf)
  have hlength : (String.ofList t.text ++ " " ++ rest).toList.length =
      t.text.length + rest.toList.length + 1 := by
    have hspace : " ".toList = [' '] := rfl
    simp only [String.toList_append, String.toList_ofList, hspace, List.length_append,
      List.length_singleton]
    omega
  rw [hline.reads_iff, hB.window_iff hsome, hB.cut_iff hvalue, hlength, Nat.succ_le_succ_iff]

end

/-! ### Exact numbers -/

def digitOf (c : Char) : Fin 10 := ⟨(c.toNat - 48) % 10, Nat.mod_lt _ (by decide)⟩

/-- What is read of the digits in front of the point and of what follows them. -/
def readFraction (minus : Bool) (digits : List Char) : List Char → Decimal × List Char
  | '.' :: more => (⟨minus, digits.map digitOf, (more.takeWhile Char.isDigit).map digitOf⟩,
      more.dropWhile Char.isDigit)
  | behind => (⟨minus, digits.map digitOf, []⟩, behind)

def readUnsigned (minus : Bool) (cs : List Char) : Decimal × List Char :=
  readFraction minus (cs.takeWhile Char.isDigit) (cs.dropWhile Char.isDigit)

/-- The longest numeral at the beginning, and what stands behind it. -/
def readDecimal (cs : List Char) : Decimal × List Char :=
  if cs.head? = some '-' then readUnsigned true cs.tail else readUnsigned false cs

def rationalValue (minus : Bool) (q : ℚ) : Except Exn ℚ := .ok (if minus then -q else q)

/-- The library over rational numbers for doubles; only spaces are skipped. -/
def rationals : Base ℚ where
  parseJson := Sample.parseJson
  extractString := Sample.extractString
  extractInt := Sample.extractInt
  parseMessageType := Sample.parseMessageType
  parseValueType := Sample.base.parseValueType
  parseDevicePrefix := Sample.parseDevicePrefix
  devicePrefixFromRaw := Sample.base.devicePrefixFromRaw
  devicePrefixInvalid := ⟨0⟩
  devicePrefixText := Sample.base.devicePrefixText
  parseDeviceID := Sample.parseDeviceID
  deviceIDText := Sample.deviceIDText
  parseGlobalID := Sample.base.parseGlobalID
  globalIDText := Sample.base.globalIDText
  parseUnsigned := Sample.parseNumber 10
  parseHex := Sample.parseNumber 16
  parseFloat s :=
    let (t, behind) := readDecimal s.toList
    if (t.digits ≠ [] ∨ t.fraction ≠ []) ∧ behind.all (· = ' ') then
      rationalValue t.minus t.magnitude
    else .error .syntaxError
  floatText q := toString q.num
  nan := 0
  exact _ := False

theorem isDigit_digitChar : ∀ d : Fin 10, (Decimal.digitChar d).isDigit = true := by decide

theorem map_digitOf (ds : List (Fin 10)) : (ds.map Decimal.digitChar).map digitOf = ds := by
  have hdigit : ∀ d : Fin 10, digitOf (Decimal.digitChar d) = d := by decide
  rw [List.map_map]
  exact (List.map_congr_left fun d _ => hdigit d).trans (List.map_id ds)

/-- The digits at the beginning, if no digit follows them. -/
theorem span_digits (ds : List (Fin 10)) {cs : List Char} (hcs : ∀ c ∈ cs.head?, c.isDigit = false) :
    (ds.map Decimal.digitChar ++ cs).takeWhile Char.isDigit = ds.map Decimal.digitChar ∧
      (ds.map Decimal.digitChar ++ cs).dropWhile Char.isDigit = cs := by
  have hall : ∀ c ∈ ds.map Decimal.digitChar, c.isDigit = true := by
    simp only [List.forall_mem_map]
    exact fun d _ => isDigit_digitChar d
  rw [List.takeWhile_append_of_pos hall, List.dropWhile_append_of_pos hall]
  cases cs with
  | nil => simp
  | cons c cs => simp [hcs c rfl]

/-- A numeral with spaces behind it is read whole. -/
theorem readDecimal_chars (t : Decimal) {point : Bool} (hpoint : point = true ∨ t.fraction = [])
    {behind : List Char} (hbehind : ∀ c ∈ behind.head?, c = ' ') :
    readDecimal (t.chars point ++ behind) = (t, behind) := by
  obtain ⟨minus, ds, fs⟩ := t
  have hspace : ∀ c ∈ behind.head?, c.isDigit = false := fun c hc => by rw [hbehind c hc]; rfl
  have hunsigned : readUnsigned minus (ds.map Decimal.digitChar ++
      ((if point then '.' :: fs.map Decimal.digitChar else []) ++ behind)) = (⟨minus, ds, fs⟩, behind) := by
    cases point with
    | true =>
      have hpointed : ∀ c ∈ ('.' :: (fs.map Decimal.digitChar ++ behind)).head?, c.isDigit = false := by
        simp
      have hspan := span_digits ds hpointed
      have hfraction := span_digits fs hspace
      rw [if_pos rfl, readUnsigned, List.cons_append, hspan.1, hspan.2, readFraction, map_digitOf,
        hfraction.1, hfraction.2, map_digitOf]
    | false =>
      have hnone : fs = [] := hpoint.resolve_left Bool.false_ne_true
      have hspan := span_digits ds hspace
      rw [if_neg Bool.false_ne_true, List.nil_append, readUnsigned, hspan.1, hspan.2, hnone]
      cases behind with
      | nil => rw [readFraction, map_digitOf]; simp
      | cons c cs =>
        rw [hbehind c rfl, readFraction, map_digitOf]
        simp
  have hrest : Decimal.chars point ⟨minus, ds, fs⟩ ++ behind = Decimal.sign minus ++
      (ds.map Decimal.digitChar ++
        ((if point then '.' :: fs.map Decimal.digitChar else []) ++ behind)) := by
    simp [Decimal.chars]
  have hhead : (ds.map Decimal.digitChar ++
      ((if point then '.' :: fs.map Decimal.digitChar else []) ++ behind)).head? ≠ some '-' := by
    have hdigit : ∀ d : Fin 10, Decimal.digitChar d ≠ '-' := by decide
    cases ds with
    | cons d ds => simpa using hdigit d
    | nil =>
      cases point with
      | true => simp
      | false =>
        intro hminus
        exact absurd (hbehind '-' hminus) (by decide)
  cases minus with
  | true =>
    rw [hrest]
    exact (if_pos rfl).trans hunsigned
  | false => rwa [hrest, readDecimal, Decimal.sign, if_neg Bool.false_ne_true, List.nil_append,
      if_neg hhead]

theorem rationals_parseFloat (t : Decimal) {point : Bool} (hpoint : point = true ∨ t.fraction = [])
    {behind : List Char} (hbehind : ∀ c ∈ behind.head?, c = ' ') :
    rationals.parseFloat (String.ofList (t.chars point ++ behind)) =
      if (t.digits ≠ [] ∨ t.fraction ≠ []) ∧ behind.all (· = ' ') then
        rationalValue t.minus t.magnitude
      else .error .syntaxError := by
  simp only [rationals, String.toList_ofList, readDecimal_chars t hpoint hbehind]

theorem point_text (t : Decimal) : (!t.fraction.isEmpty) = true ∨ t.fraction = [] := by
  cases t.fraction <;> simp

theorem rationals_readsDecimals : ReadsDecimals rationals rationalValue (· = ' ') where
  space := rfl
  reads t point behind hsome hpoint hbehind := by
    rw [rationals_parseFloat t hpoint fun c hc => hbehind c (List.mem_of_mem_head? hc),
      if_pos ⟨hsome, by simpa using hbehind⟩]
  stops t behind hsome hbehind := by
    rw [Decimal.text, rationals_parseFloat t (point_text t) (by simp), if_neg]
    exact fun h => hbehind fun c hc => by simpa using List.all_eq_true.mp h.2 c (List.mem_cons_of_mem _ hc)
  empty minus := by
    have hsign := @rationals_parseFloat ⟨minus, [], []⟩ false (Or.inr rfl) [] (by simp)
    simpa [Decimal.chars] using hsign
  convex hqr hru hq hu := by
    simp only [rationalValue, Except.ok.injEq] at hq hu ⊢
    split_ifs at hq hu ⊢ <;> linarith
  apart {minus p m n x} _ _ _ hm hn := by
    have heq : (m : ℚ) / 10 ^ p = n / 10 ^ p := by
      simp only [rationalValue, Except.ok.injEq] at hm hn
      split_ifs at hm hn <;> linarith
    rw [div_left_inj' (by positivity)] at heq
    exact_mod_cast heq

def rationalPlatform : Platform ℚ := ⟨⟨0x09⟩, fun n => n, fun v n => v = n⟩

theorem rationals_text (t : Decimal) (h : t.digits ≠ [] ∨ t.fraction ≠ []) :
    rationals.parseFloat (String.ofList t.text) = rationalValue t.minus t.magnitude := by
  rw [← List.append_nil t.text]
  exact rationals_readsDecimals.reads t _ [] h (point_text t) (by simp)

/-- The battery of the two lines below. -/
theorem battery_line (t : Decimal) : (token (StringTokenizer
    (temperatureLine "02359296" false (String.ofList t.text) "LB:0") ' ') 3 >>=
      getBatteryStatus rationals rationalPlatform) = .ok 100 := by
  have hserial : ' ' ∉ "02359296".toList := by decide
  have hline := tokens_line (t := String.ofList t.text) false "LB:0" hserial
    (by rw [String.toList_ofList]; exact no_space_text t)
  have htoken : token (StringTokenizer "LB:0" ':') 1 =
      .ok (String.ofList (Decimal.text ⟨false, [0], []⟩)) := rfl
  have hzero : Decimal.magnitude ⟨false, [0], []⟩ = 0 := by
    simp [Decimal.magnitude, Decimal.part, Decimal.number]
  have hvalue : getValue rationals "LB:0" = .ok 0 := by
    have hread := rationals_text ⟨false, [0], []⟩ (Or.inl (List.cons_ne_nil _ _))
    rw [hzero] at hread
    rw [getValue, htoken, ok_bind, hread]
    rfl
  have hfull : getBatteryStatus rationals rationalPlatform "LB:0" = .ok 100 := by
    rw [getBatteryStatus, hvalue]
    simp [rationalPlatform, bind, Except.bind, pure, Except.pure, FULL_BATTERY]
  have hbattery : token (StringTokenizer
      (temperatureLine "02359296" false (String.ofList t.text) "LB:0") ' ') 3 = .ok "LB:0" := by
    rw [hline]
    rfl
  rw [hbattery, ok_bind, hfull]

/-- Five characters of which the last is a zero behind the point. -/
theorem lost_zero_read : Reads rationals rationalPlatform
    (temperatureLine "02359296" false "-12.0" "LB:0") (temperatureModuleID false) (-12) := by
  have hvalue : rationals.parseFloat (String.ofList (Decimal.text ⟨true, [1, 2], [0]⟩)) = .ok (-12) := by
    rw [rationals_text _ (Or.inl (by decide))]
    norm_num [rationalValue, Decimal.magnitude, Decimal.part, Decimal.number, Nat.ofDigits_cons]
  exact (temperature_read_iff (n := 100) (k := 2359296) rationals_readsDecimals rfl
    (List.all_eq_true.mp rfl) rfl rfl ⟨true, [1, 2], [0]⟩ hvalue (battery_line _)).mpr
      ⟨by decide, fun _ hc => absurd hc List.not_mem_nil, Or.inl (by decide), by decide, rfl⟩

/-- Of five characters the last is lost: -12.5 is read as -12. -/
theorem fifth_character_lost : ¬ ∀ (serial rest : String) (requested : Bool) (k n : ℕ) (t : Decimal)
    (x : ℚ), serial.toList.length = 8 → (∀ c ∈ serial.toList, c.isDigit = true) →
    rationals.parseUnsigned serial = .ok k → getDeviceType (BitVec.ofNat 32 k) = .tp82n →
    rationals.parseFloat (String.ofList t.text) = .ok x →
    (token (StringTokenizer
      (temperatureLine serial requested (String.ofList t.text) rest) ' ') 3 >>=
        getBatteryStatus rationals rationalPlatform) = .ok n →
    Reads rationals rationalPlatform
      (temperatureLine serial requested (String.ofList t.text) rest)
      (temperatureModuleID requested) x := by
  intro h
  have hvalue : rationals.parseFloat (String.ofList (Decimal.text ⟨true, [1, 2], [5]⟩)) =
      .ok (-25 / 2) := by
    rw [rationals_text _ (Or.inl (by decide))]
    norm_num [rationalValue, Decimal.magnitude, Decimal.part, Decimal.number, Nat.ofDigits_cons]
  have hreads := h "02359296" "LB:0" false 2359296 100 ⟨true, [1, 2], [5]⟩ (-25 / 2) rfl
    (List.all_eq_true.mp rfl) rfl rfl hvalue (battery_line _)
  have hline : OfThermostat rationals rationalPlatform "02359296"
      (String.ofList (Decimal.text ⟨true, [1, 2], [5]⟩)) "LB:0" false 2359296 100 :=
    ⟨rfl, by decide, by decide, rfl, rfl, battery_line _⟩
  have hwindow := (hline.reads_iff.mp hreads).2
  have hread : rationals.parseFloat (window (String.ofList (Decimal.text ⟨true, [1, 2], [5]⟩)) "LB:0") =
      .ok (-12) := by
    have hcut := rationals_readsDecimals.reads ⟨true, [1, 2], []⟩ true [] (Or.inl (by decide))
      (Or.inl rfl) (by simp)
    refine hcut.trans ?_
    norm_num [rationalValue, Decimal.magnitude, Decimal.part, Decimal.number, Nat.ofDigits_cons]
  rw [hread] at hwindow
  norm_num at hwindow

end BeeeOn.JablotronDeviceManager
