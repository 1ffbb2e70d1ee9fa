import FireCrow.Library.CellRate
import FireCrow.Library.IpAddr

/-!
# Rate limits

A rate is a count and a unit of time.  `rate_limiter` makes the count the burst
and the whole unit the time after which one request comes back.

The limiter itself is a dependency, a parameter here.
-/

namespace FireCrow.Middleware.RateLimit

open FireCrow.Library

/-! ## The rate text -/

/-- Nanoseconds. -/
abbrev Duration := Nat

def fromSecs (seconds : Nat) : Duration := seconds * 10 ^ 9

def asMillis (duration : Duration) : Nat := duration / 10 ^ 6

def periodOf (part : Text) : Duration :=
  if part = ("second" : Text) then fromSecs 1
  else if part = ("minute" : Text) then fromSecs 60
  else if part = ("hour" : Text) then fromSecs 3600
  else if part = ("day" : Text) then fromSecs 86400
  else fromSecs 3600

def parseRateLimit (text : Text) : Nat × Duration :=
  let parts := text.splitOn '/'
  let count := (parts[0]?.bind fun part =>
    Text.parseUnsigned 10 (2 ^ 32) part).getD 100
  let period := parts[1]?.map periodOf
  (count, period.getD (fromSecs 3600))

/-! ## The limiter -/

/-- `finish` of the configuration builder, and the requests of one client that
a limiter admits, given the instants at which they are made. -/
structure Governor where
  Limiter : Type
  finish : (perMillisecond burstSize : Nat) → Option Limiter
  admitted : Limiter → List Nat → List Nat

/-- What the dependency documents: a configuration without a burst or without
a period is none, and a limiter is a bucket of `burst_size` cells that get back
one cell a period. -/
structure Governor.Documented (governor : Governor) : Prop where
  finish_none : ∀ perMillisecond burstSize,
    governor.finish perMillisecond burstSize = none ↔
      perMillisecond = 0 ∨ burstSize = 0
  admits : ∀ perMillisecond burstSize limiter,
    governor.finish perMillisecond burstSize = some limiter →
      ∀ times, governor.admitted limiter times =
        Gcra.admitted ⟨perMillisecond * 10 ^ 6, burstSize⟩ none times

/-- `rate_limiter`, which panics where there is no configuration. -/
def rateLimiter (governor : Governor) (rate : Text) : Option governor.Limiter :=
  let parsed := parseRateLimit rate
  governor.finish (asMillis parsed.2) parsed.1

/-! ## What a rate says -/

inductive RateUnit where
  | second
  | minute
  | hour
  | day
deriving DecidableEq

def RateUnit.name : RateUnit → Text
  | .second => "second"
  | .minute => "minute"
  | .hour => "hour"
  | .day => "day"

def RateUnit.seconds : RateUnit → Nat
  | .second => 1
  | .minute => 60
  | .hour => 3600
  | .day => 86400

def RateUnit.length (unit : RateUnit) : Duration := fromSecs unit.seconds

/-- The text is a count in digits, a slash and a unit. -/
def Reads (rate : Text) (count : Nat) (unit : RateUnit) : Prop :=
  ∃ digits : Text, digits ≠ [] ∧
    (∀ character ∈ digits, Text.isAsciiDigit character = true) ∧
    Text.fromDigits 10 digits = count ∧ rate = digits ++ '/' :: unit.name

/-- No window of the length has more than so many instants. -/
def AtMost (count length : Nat) (times : List Nat) : Prop :=
  ∀ start, (inWindow start length times).length ≤ count

/-- A limiter is built; and where the text is a positive count by a unit, a
schedule that keeps to the rate is admitted whole, and of no schedule is more
than twice the count admitted in one unit. -/
def AdmitsRate (governor : Governor) (rate : Text) : Prop :=
  ∃ limiter, rateLimiter governor rate = some limiter ∧
    ∀ count unit, Reads rate count unit → 1 ≤ count →
      ∀ times : List Nat, times.Pairwise (· ≤ ·) →
        (AtMost count unit.length times →
          governor.admitted limiter times = times) ∧
        AtMost (2 * count) unit.length (governor.admitted limiter times)

/-! ## Reading -/

theorem digit_of_isAsciiDigit {character : Char}
    (digit : Text.isAsciiDigit character = true) :
    (Text.digit 10 character).isSome = true := by
  have range := digit
  simp only [Text.isAsciiDigit, Bool.and_eq_true, decide_eq_true_eq, Char.le_def,
    UInt32.le_iff_toNat_le] at range
  have least : 48 ≤ character.toNat := range.1
  have most : character.toNat ≤ 57 := range.2
  have zero : '0'.toNat = 48 := rfl
  simp only [Text.digit, digit, if_true, Option.isSome_filter, zero,
    Option.any_some, decide_eq_true_eq]
  omega

theorem parseUnsigned_decimal {digits : Text} (nonempty : digits ≠ [])
    (decimal : ∀ character ∈ digits, Text.isAsciiDigit character = true)
    (bound : Nat) :
    Text.parseUnsigned 10 bound digits =
      (some (Text.fromDigits 10 digits)).filter fun number => number < bound := by
  have unsigned : digits.stripPrefix "+" = none := by
    rw [Option.eq_none_iff_forall_ne_some]
    intro rest stripped
    rw [Text.stripPrefix_eq_some] at stripped
    have member : '+' ∈ digits := by
      rw [stripped]
      exact List.mem_cons_self
    exact absurd (decimal _ member) (by decide)
  have listed : (digits.any fun character =>
      (Text.digit 10 character).isNone) = false := by
    rw [List.any_eq_false]
    intro character member
    have known := digit_of_isAsciiDigit (decimal character member)
    simp [Option.isSome_iff_ne_none.mp known]
  rw [Text.parseUnsigned, unsigned, Option.getD_none, listed,
    List.isEmpty_eq_false_iff.2 nonempty]
  rfl

theorem periodOf_name (unit : RateUnit) : periodOf unit.name = unit.length := by
  cases unit <;> decide

theorem slash_not_mem_name (unit : RateUnit) : '/' ∉ unit.name := by
  cases unit <;> decide

section Reads

variable {rate : Text} {count : Nat} {unit : RateUnit}

theorem Reads.parse (reads : Reads rate count unit) :
    parseRateLimit rate =
      (((some count).filter fun number => number < 2 ^ 32).getD 100,
        unit.length) := by
  rcases reads with ⟨digits, nonempty, decimal, value, same⟩
  have plain : '/' ∉ digits := fun member =>
    absurd (decimal _ member) (by decide)
  have parts : rate.splitOn '/' = [digits, unit.name] := by
    have joined : digits ++ '/' :: unit.name =
        List.intercalate ['/'] [digits, unit.name] := by
      simp [List.intercalate]
    rw [same, joined]
    refine List.splitOn_intercalate '/' (fun part member => ?_) (List.cons_ne_nil _ _)
    rcases List.mem_cons.mp member with first | second
    · exact first ▸ plain
    · exact List.mem_singleton.mp second ▸ slash_not_mem_name unit
  simp only [parseRateLimit, parts, List.getElem?_cons_zero, Option.bind_some,
    List.getElem?_cons_succ, Option.map_some, Option.getD_some, periodOf_name,
    parseUnsigned_decimal nonempty decimal, value]

end Reads

theorem asMillis_length (unit : RateUnit) :
    asMillis unit.length * 10 ^ 6 = unit.length ∧ 0 < unit.length := by
  cases unit <;> decide

/-! ## The limiter of a rate -/

section Limiter

variable {governor : Governor} {rate : Text}

theorem asMillis_periodOf (part : Text) : asMillis (periodOf part) ≠ 0 := by
  simp only [periodOf]
  split_ifs <;> decide

theorem asMillis_parse (rate : Text) : asMillis (parseRateLimit rate).2 ≠ 0 := by
  simp only [parseRateLimit]
  cases second : (rate.splitOn '/')[1]? with
  | none => decide
  | some part => exact asMillis_periodOf part

/-- No limiter is built exactly where the count reads as zero. -/
theorem rateLimiter_none (documented : governor.Documented) :
    rateLimiter governor rate = none ↔ (parseRateLimit rate).1 = 0 := by
  simp only [rateLimiter, documented.finish_none, asMillis_parse, false_or]

/-- The bucket behind a rate: the burst is the count, and one cell comes back
in a whole unit. -/
theorem rateLimiter_admitted (documented : governor.Documented) {count : Nat}
    {unit : RateUnit} (reads : Reads rate count unit) {limiter : governor.Limiter}
    (built : rateLimiter governor rate = some limiter) (times : List Nat) :
    governor.admitted limiter times =
      Gcra.admitted ⟨unit.length, (parseRateLimit rate).1⟩ none times := by
  have admits := documented.admits _ _ limiter built times
  rw [admits, reads.parse, (asMillis_length unit).1]

end Limiter

/-! ## One request a unit -/

/-- With one request in any window, requests are a window apart. -/
theorem apart_of_atMost_one {length : Nat} (positive : 0 < length) :
    ∀ {times : List Nat}, times.Pairwise (· ≤ ·) → AtMost 1 length times →
      times.Pairwise fun earlier later => earlier + length ≤ later
  | [], _, _ => List.Pairwise.nil
  | now :: later, ordered, single => by
    have steps := List.pairwise_cons.mp ordered
    refine List.pairwise_cons.mpr ⟨fun next member => ?_,
      apart_of_atMost_one positive steps.2 fun start =>
        Nat.le_trans ?_ (single start)⟩
    · refine Nat.le_of_not_lt fun close => ?_
      have first : inWindow now length (now :: later) =
          now :: inWindow now length later :=
        List.filter_cons_of_pos (by simpa using positive)
      have second : next ∈ inWindow now length later := by
        refine List.mem_filter.mpr ⟨member, ?_⟩
        simpa using ⟨steps.1 next member, close⟩
      have bound := single now
      have some_later := List.length_pos_of_mem second
      rw [first, List.length_cons] at bound
      omega
    · exact ((List.sublist_cons_self now later).filter _).length_le

theorem unit_and_burst (interval : Nat) {burst : Nat} (some_cell : 0 < burst) :
    interval + (burst - 1) * interval = burst * interval := by
  rw [Nat.add_comm, ← Nat.add_one_mul, Nat.sub_add_cancel some_cell]

/-- With a cell a unit, no unit has more admitted than the burst. -/
theorem admitted_atMost_burst {interval burst : Nat} (some_cell : 0 < burst) (times : List Nat) :
    AtMost burst interval (Gcra.admitted ⟨interval, burst⟩ none times) := by
  intro start
  refine Gcra.admitted_in_window_le some_cell (fun count room => ?_) times
  simp only [unit_and_burst interval some_cell] at room
  exact Nat.lt_of_mul_lt_mul_right room

/-! ## Two bursts a unit apart -/

/-- A burst at the beginning and another one a unit later. -/
def twoBursts (burst length : Nat) : List Nat :=
  List.replicate burst 0 ++ List.replicate burst length

theorem twoBursts_ordered (burst length : Nat) :
    (twoBursts burst length).Pairwise (· ≤ ·) := by
  refine List.pairwise_append.mpr ⟨?_, ?_, ?_⟩
  · exact List.pairwise_replicate.mpr (.inr (Nat.le_refl 0))
  · exact List.pairwise_replicate.mpr (.inr (Nat.le_refl length))
  · intro earlier first later _
    rw [List.eq_of_mem_replicate first]
    exact Nat.zero_le later

theorem twoBursts_atMost (burst length : Nat) :
    AtMost burst length (twoBursts burst length) := by
  intro start
  rw [inWindow, twoBursts, List.filter_append, List.filter_replicate,
    List.filter_replicate, List.length_append]
  by_cases first : start = 0
  · have beyond : ¬ (start ≤ length && length < start + length) = true := by
      simp [first]
    rw [if_neg beyond, List.length_nil, Nat.add_zero]
    split <;> simp
  · have before : ¬ (start ≤ 0 && 0 < start + length) = true := by
      simp [first]
    rw [if_neg before, List.length_nil, Nat.zero_add]
    split <;> simp

theorem twoBursts_refused {burst length : Nat} (positive : 0 < length)
    (several : 2 ≤ burst) :
    Gcra.admitted ⟨length, burst⟩ none (twoBursts burst length) ≠
      twoBursts burst length := by
  intro all
  have bound : (inWindow 0 (length + 1) (Gcra.admitted ⟨length, burst⟩ none
      (twoBursts burst length))).length ≤ burst + 1 := by
    refine Gcra.admitted_in_window_le (Nat.succ_pos burst)
      (fun count room => ?_) _
    have whole := unit_and_burst length (Nat.lt_of_lt_of_le Nat.two_pos several)
    simp only at room
    have below : count * length ≤ burst * length := by omega
    exact Nat.lt_succ_of_le (Nat.le_of_mul_le_mul_right below positive)
  rw [all, inWindow, twoBursts, List.filter_append, List.filter_replicate,
    List.filter_replicate, if_pos (by simp), if_pos (by simp),
    List.length_append, List.length_replicate, List.length_replicate] at bound
  omega

/-! ## What the limiter admits -/

theorem admitsRate_rules {governor : Governor} (documented : governor.Documented)
    (rate : Text) :
    AdmitsRate governor rate ↔
      (parseRateLimit rate).1 ≠ 0 ∧
        ∀ count unit, Reads rate count unit → count = 1 := by
  constructor
  · rintro ⟨limiter, built, admits⟩
    have some_count : (parseRateLimit rate).1 ≠ 0 := by
      rw [Ne, ← rateLimiter_none documented, built]
      exact Option.some_ne_none limiter
    refine ⟨some_count, fun count unit reads => ?_⟩
    have parsed := reads.parse
    have positive := (asMillis_length unit).2
    by_cases zero : count = 0
    · rw [parsed, zero] at some_count
      exact absurd rfl some_count
    · by_contra several
      -- The burst is the count, or a hundred where that does not fit.
      have burst : 2 ≤ (parseRateLimit rate).1 ∧ (parseRateLimit rate).1 ≤ count := by
        rw [parsed]
        by_cases fits : count < 2 ^ 32
        · rw [Option.filter_some_pos (by simpa using fits), Option.getD_some]
          omega
        · rw [Option.filter_some_neg (by simpa using fits), Option.getD_none]
          omega
      have ordered := twoBursts_ordered (parseRateLimit rate).1 unit.length
      have kept := (admits count unit reads (by omega) _ ordered).1
        fun start => Nat.le_trans (twoBursts_atMost _ _ start) burst.2
      rw [rateLimiter_admitted documented reads built] at kept
      exact twoBursts_refused positive burst.1 kept
  · rintro ⟨some_count, single⟩
    cases built : rateLimiter governor rate with
    | none => exact absurd ((rateLimiter_none documented).mp built) some_count
    | some limiter =>
      refine ⟨limiter, built, fun count unit reads _ times ordered => ?_⟩
      have positive := (asMillis_length unit).2
      have burst : (parseRateLimit rate).1 = 1 := by
        rw [reads.parse, single count unit reads]
        rfl
      rw [rateLimiter_admitted documented reads built, burst,
        single count unit reads]
      refine ⟨fun atMost => ?_, fun start => ?_⟩
      · exact Gcra.admitted_of_apart (fun time none => by cases none)
          (apart_of_atMost_one positive ordered atMost)
      · exact Nat.le_trans
          (admitted_atMost_burst Nat.one_pos times start) (by omega)

/-- The limiter admits what the rate says exactly where the rate says one. -/
theorem admits_rate_iff {governor : Governor} (documented : governor.Documented)
    (rate : Text) :
    AdmitsRate governor rate ↔
      (parseRateLimit rate).1 ≠ 0 ∧
        ∀ count unit, Reads rate count unit → count = 1 :=
  admitsRate_rules documented rate

/-- A limiter as documented. -/
def bucket : Governor where
  Limiter := Gcra
  finish perMillisecond burstSize :=
    if perMillisecond = 0 ∨ burstSize = 0 then none
    else some ⟨perMillisecond * 10 ^ 6, burstSize⟩
  admitted limiter times := limiter.admitted none times

theorem bucket_documented : bucket.Documented where
  finish_none perMillisecond burstSize := by
    simp only [bucket]
    split <;> simp_all
  admits perMillisecond burstSize limiter finished times := by
    simp only [bucket] at finished
    split at finished
    · cases finished
    · cases finished
      rfl

/-- Five a minute. -/
def fivePerMinute : Text := "5/minute"

theorem fivePerMinute_reads : Reads fivePerMinute 5 .minute :=
  ⟨("5" : Text), by decide, by decide, by decide, by decide⟩

theorem five_per_minute_iff :
    AdmitsRate bucket fivePerMinute ↔
      (parseRateLimit fivePerMinute).1 ≠ 0 ∧
        ∀ count unit, Reads fivePerMinute count unit → count = 1 :=
  admits_rate_iff bucket_documented fivePerMinute

/-- Of five requests now and five a minute later, some of the later ones are
refused. -/
theorem five_per_minute_refused :
    bucket.Documented ∧ ¬ AdmitsRate bucket fivePerMinute := by
  refine ⟨bucket_documented, fun admits => ?_⟩
  have rules := (admitsRate_rules bucket_documented fivePerMinute).mp admits
  exact absurd (rules.2 5 .minute fivePerMinute_reads) (by decide)

end FireCrow.Middleware.RateLimit
