import Mathlib

/-!
# IP addresses

`std::net::IpAddr` with its order, its `Display` and its `FromStr`, which the visa service
uses for attribute values, database keys and messages.
-/
namespace VisaService

/-- `std::net::IpAddr`. -/
inductive IpAddr where
  | v4 (bits : BitVec 32)
  | v6 (bits : BitVec 128)
  deriving DecidableEq, Repr

namespace IpAddr

/-- Position in the order of `IpAddr`: every IPv4 address before every IPv6 one. -/
def rank : IpAddr → Nat
  | v4 bits => bits.toNat
  | v6 bits => 2 ^ 32 + bits.toNat

theorem rank_injective : Function.Injective rank := by
  intro a b same
  cases a with
  | v4 x =>
    cases b with
    | v4 y => exact congrArg v4 (BitVec.eq_of_toNat_eq same)
    | v6 y =>
      have bound := x.isLt
      simp only [rank] at same
      omega
  | v6 x =>
    cases b with
    | v4 y =>
      have bound := y.isLt
      simp only [rank] at same
      omega
    | v6 y =>
      have bits : x.toNat = y.toNat := by
        simp only [rank] at same
        omega
      exact congrArg v6 (BitVec.eq_of_toNat_eq bits)

instance : Ord IpAddr := ⟨compareOn rank⟩

instance : Std.TransOrd IpAddr := inferInstanceAs (Std.TransCmp (compareOn rank))

instance : Std.LawfulEqOrd IpAddr where
  eq_of_compare same := rank_injective (Std.compare_eq_iff_eq.mp same)

/-! ### Display -/

/-- The octets of an IPv4 address, most significant first. -/
def octets (bits : BitVec 32) : List Nat :=
  [24, 16, 8, 0].map fun shift => (bits.extractLsb' shift 8).toNat

/-- The eight 16-bit groups of an IPv6 address, most significant first. -/
def segments (bits : BitVec 128) : List Nat :=
  [112, 96, 80, 64, 48, 32, 16, 0].map fun shift => (bits.extractLsb' shift 16).toNat

/-- Start and length of the first longest run of zeros: `current` is the run that ends
before `position`, `longest` the best run so far. -/
def zeroRun (current longest : Nat × Nat) (position : Nat) : List Nat → Nat × Nat
  | [] => longest
  | segment :: rest =>
    if segment = 0 then
      let current := if current.2 = 0 then (position, 1) else (current.1, current.2 + 1)
      zeroRun current (if longest.2 < current.2 then current else longest) (position + 1) rest
    else zeroRun (0, 0) longest (position + 1) rest

def displayV4 (bits : BitVec 32) : String := ".".intercalate ((octets bits).map Nat.repr)

def displaySegments (groups : List Nat) : String :=
  ":".intercalate (groups.map fun group => String.ofList (Nat.toDigits 16 group))

/-- `Display` of the standard library: IPv4-mapped addresses end in dotted decimals, and the
first longest run of at least two zero groups is written `::`. -/
def display : IpAddr → String
  | v4 bits => displayV4 bits
  | v6 bits =>
    if (segments bits).take 6 = [0, 0, 0, 0, 0, 0xffff] then
      "::ffff:" ++ displayV4 (bits.setWidth 32)
    else
      let groups := segments bits
      let (start, length) := zeroRun (0, 0) (0, 0) 0 groups
      if 1 < length then
        displaySegments (groups.take start) ++ "::" ++ displaySegments (groups.drop (start + length))
      else displaySegments groups

example : display (.v6 0xfd5a5052000000000000000000010002) = "fd5a:5052::1:2" := by decide +kernel

/-! ### Reading -/

def digitValue (radix : Nat) (c : Char) : Option Nat :=
  let value :=
    if '0' ≤ c ∧ c ≤ '9' then c.toNat - '0'.toNat
    else if 'a' ≤ c ∧ c ≤ 'z' then c.toNat - 'a'.toNat + 10
    else if 'A' ≤ c ∧ c ≤ 'Z' then c.toNat - 'A'.toNat + 10
    else radix
  if value < radix then some value else none

/-- The leading digits and what follows them. -/
def readDigits (radix : Nat) : List Char → List Nat × List Char
  | [] => ([], [])
  | c :: rest =>
    match digitValue radix c with
    | none => ([], c :: rest)
    | some digit =>
      let (digits, left) := readDigits radix rest
      (digit :: digits, left)

/-- A number below `bound` of one to `maxDigits` digits. -/
def readNumber (radix maxDigits bound : Nat) (allowZeroPrefix : Bool) (input : List Char) :
    Option (Nat × List Char) :=
  let (digits, rest) := readDigits radix input
  let value := digits.foldl (fun value digit => value * radix + digit) 0
  let leadingZero := decide (1 < digits.length) && digits.head? == some 0
  if digits.isEmpty ∨ maxDigits < digits.length ∨ bound ≤ value then none
  else if leadingZero && !allowZeroPrefix then none
  else some (value, rest)

def readGivenChar (expected : Char) : List Char → Option (List Char)
  | [] => none
  | c :: rest => if c = expected then some rest else none

/-- Every item but the first is preceded by the separator. -/
def readSeparated {α : Type} (separator : Char) (index : Nat)
    (item : List Char → Option (α × List Char)) (input : List Char) :
    Option (α × List Char) :=
  if index = 0 then item input else (readGivenChar separator input).bind item

def readOctets : Nat → Nat → List Char → Option (List Nat × List Char)
  | 0, _, input => some ([], input)
  | left + 1, index, input =>
    (readSeparated '.' index (readNumber 10 3 256 false) input).bind fun (octet, rest) =>
      (readOctets left (index + 1) rest).map fun (octets, rest) => (octet :: octets, rest)

def readIpv4 (input : List Char) : Option (List Nat × List Char) := readOctets 4 0 input

/-- Up to `left` groups; an embedded IPv4 address stands for the last two. The flag says
whether one was read. -/
def readGroups : Nat → Nat → List Char → List Nat × Bool × List Char
  | 0, _, input => ([], false, input)
  | left + 1, index, input =>
    match if 0 < left then readSeparated ':' index readIpv4 input else none with
    | some (octets, rest) =>
      ([octets[0]! * 256 + octets[1]!, octets[2]! * 256 + octets[3]!], true, rest)
    | none =>
      match readSeparated ':' index (readNumber 16 4 65536 true) input with
      | none => ([], false, input)
      | some (group, rest) =>
        let (groups, embedded, rest) := readGroups left (index + 1) rest
        (group :: groups, embedded, rest)

/-- Eight groups, or fewer with `::` for at least one group of zeros. -/
def readIpv6 (input : List Char) : Option (List Nat × List Char) :=
  let (head, embedded, rest) := readGroups 8 0 input
  if head.length = 8 then some (head, rest)
  else if embedded then none
  else
    ((readGivenChar ':' rest).bind (readGivenChar ':')).map fun rest =>
      let (tail, _, rest) := readGroups (7 - head.length) 0 rest
      (head ++ List.replicate (8 - head.length - tail.length) 0 ++ tail, rest)

/-- `str::parse::<IpAddr>`. -/
def parse (text : String) : Option IpAddr :=
  match readIpv4 text.toList with
  | some (octets, rest) =>
    if rest.isEmpty then
      some (.v4 (.ofNat 32 (octets.foldl (fun value octet => value * 256 + octet) 0)))
    else none
  | none =>
    (readIpv6 text.toList).bind fun (groups, rest) =>
      if rest.isEmpty then
        some (.v6 (.ofNat 128 (groups.foldl (fun value group => value * 65536 + group) 0)))
      else none

example : parse "fd5a:5052::1:2" = some (.v6 0xfd5a5052000000000000000000010002) := by
  decide +kernel

example : parse "10.0.0.1" = some (.v4 0x0A000001) := by decide +kernel

example : parse "10.0.0.01" = none := by decide +kernel

/-- `str::parse::<Ipv4Addr>`. -/
def parseV4 (text : String) : Option (BitVec 32) :=
  (readIpv4 text.toList).bind fun (octets, rest) =>
    if rest.isEmpty then
      some (.ofNat 32 (octets.foldl (fun value octet => value * 256 + octet) 0))
    else none

/-- `str::parse::<Ipv6Addr>`. -/
def parseV6 (text : String) : Option (BitVec 128) :=
  (readIpv6 text.toList).bind fun (groups, rest) =>
    if rest.isEmpty then
      some (.ofNat 128 (groups.foldl (fun value group => value * 65536 + group) 0))
    else none

/-! ### What is printed is read back -/

section Numbers

variable {radix n : Nat} {rest : List Char} (large : 1 < radix) (small : radix ≤ 16)
include large small

/-- The digits of a number, most significant first; only zero itself begins with a zero. -/
theorem toDigits_values (n : Nat) :
    ∃ digits, (Nat.toDigits radix n).map (digitValue radix) = digits.map some ∧ digits ≠ [] ∧
      digits.foldl (fun value digit => value * radix + digit) 0 = n ∧
      (digits.head? = some 0 → digits.length = 1) := by
  have value : ∀ radix ≤ 16, ∀ digit < radix, digitValue radix digit.digitChar = some digit := by
    decide
  induction n using Nat.strongRecOn with
  | _ n ih =>
    rw [Nat.toDigits_eq_if large]
    split
    next isDigit => exact ⟨[n], by simp [value radix small n isDigit], by simp, by simp, fun _ => rfl⟩
    next more =>
      have positive : 0 < n / radix := Nat.div_pos (not_lt.mp more) (by omega)
      obtain ⟨digits, values, nonempty, folds, leads⟩ :=
        ih (n / radix) (Nat.div_lt_self (by omega) large)
      refine ⟨digits ++ [n % radix], ?_, by simp, ?_, fun zero => ?_⟩
      · simp [values, value radix small _ (Nat.mod_lt n (by omega))]
      · rw [List.foldl_append, folds]
        exact Nat.div_add_mod' n radix
      · -- the digits before the last are not those of zero
        rw [List.head?_append_of_ne_nil _ nonempty] at zero
        obtain ⟨digit, rfl⟩ := List.length_eq_one_iff.mp (leads zero)
        cases zero
        simp at folds
        omega

theorem digit_of_mem_toDigits {c : Char} (member : c ∈ Nat.toDigits radix n) :
    digitValue radix c ≠ none := by
  obtain ⟨digits, values, -⟩ := toDigits_values large small n
  have isDigit := List.mem_map_of_mem (f := digitValue radix) member
  rw [values] at isDigit
  intro isNone
  simp [isNone] at isDigit

theorem readNumber_toDigits (stops : readDigits radix rest = ([], rest)) {maxDigits bound : Nat}
    (zeros : Bool) (nonzero : 0 < maxDigits) (fits : n < radix ^ maxDigits) (bounded : n < bound) :
    readNumber radix maxDigits bound zeros (Nat.toDigits radix n ++ rest) = some (n, rest) := by
  obtain ⟨digits, values, nonempty, folds, leads⟩ := toDigits_values large small n
  have short := Nat.toDigits_length radix n maxDigits nonzero fits
  have reads : ∀ {text : List Char} {digits : List Nat},
      text.map (digitValue radix) = digits.map some →
      readDigits radix (text ++ rest) = (digits, rest) := by
    intro text
    induction text with
    | nil =>
      rintro digits values
      cases List.map_eq_nil_iff.mp values.symm
      exact stops
    | cons c text ih =>
      rintro (_ | ⟨digit, digits⟩) values
      · cases values
      · obtain ⟨value, values⟩ := List.cons.inj values
        simp [readDigits, value, ih values]
  rw [← List.length_map (f := digitValue radix), values, List.length_map] at short
  simp only [readNumber, reads values, folds]
  rw [if_neg (by simp [nonempty, short, bounded]), if_neg]
  simp only [Bool.and_eq_true, decide_eq_true_eq, beq_iff_eq, not_and]
  rintro ⟨several, zero⟩
  have single := leads zero
  omega

end Numbers

theorem readIpv4_displayV4 (bits : BitVec 32) :
    readIpv4 (displayV4 bits).toList = some (octets bits, []) := by
  have number (n : Nat) {rest : List Char} (stops : readDigits 10 rest = ([], rest)) :
      readNumber 10 3 256 false (Nat.toDigits 10 (n % 256) ++ rest) = some (n % 256, rest) :=
    readNumber_toDigits (by decide) (by decide) stops false (by decide) (by omega) (by omega)
  have dot (rest : List Char) : readDigits 10 ('.' :: rest) = ([], '.' :: rest) := rfl
  have last (n : Nat) :
      readNumber 10 3 256 false (Nat.toDigits 10 (n % 256)) = some (n % 256, []) := by
    rw [← List.append_nil (Nat.toDigits 10 _), number n rfl]
  simp [displayV4, octets, Nat.repr_eq_ofList_toDigits, readIpv4, readOctets, readSeparated,
    readGivenChar, number, dot, last]

theorem mem_displayV4 {bits : BitVec 32} {c : Char} (member : c ∈ (displayV4 bits).toList) :
    c = '.' ∨ digitValue 10 c ≠ none := by
  have digit {n : Nat} (isDigit : c ∈ Nat.toDigits 10 n) : digitValue 10 c ≠ none :=
    digit_of_mem_toDigits (by decide) (by decide) isDigit
  simp [displayV4, octets, Nat.repr_eq_ofList_toDigits] at member
  grind

/-- Groups with a colon before each but the first. -/
def joined (first : Bool) : List Nat → List Char
  | [] => []
  | n :: rest => (if first then [] else [':']) ++ (Nat.toDigits 16 n ++ joined false rest)

theorem toList_displaySegments (groups : List Nat) :
    (displaySegments groups).toList = joined true groups := by
  have text : (displaySegments groups).toList = [':'].intercalate (groups.map (Nat.toDigits 16)) := by
    simp [displaySegments, String.toList_intercalate, Function.comp_def]
  rw [text]
  clear text
  induction groups with
  | nil => rfl
  | cons n groups ih =>
    cases groups with
    | nil => simp [joined]
    | cons m groups => simp_all [joined, List.intercalate_cons_cons]

section Groups

variable {input rest : List Char} {c : Char}

theorem mem_readDigits {radix : Nat} (member : c ∈ (readDigits radix input).2) : c ∈ input := by
  induction input with
  | nil => exact member
  | cons first input ih =>
    simp only [readDigits] at member
    split at member
    · exact member
    · exact List.mem_cons_of_mem _ (ih member)

/-- Without a point there is no IPv4 address. -/
theorem readIpv4_none (pointless : '.' ∉ input) : readIpv4 input = none := by
  have noPoint {rest : List Char} (absent : '.' ∉ rest) : readGivenChar '.' rest = none := by
    cases rest with
    | nil => rfl
    | cons c rest => exact if_neg (by rintro rfl; exact absent List.mem_cons_self)
  have absent : '.' ∉ (readDigits 10 input).2 := fun member => pointless (mem_readDigits member)
  simp only [readIpv4, readOctets, readSeparated, if_pos]
  simp only [readNumber]
  split
  · rfl
  · split
    · rfl
    · simp [noPoint absent]

theorem readSeparated_none (pointless : '.' ∉ input) (index : Nat) :
    readSeparated ':' index readIpv4 input = none := by
  cases index with
  | zero => exact readIpv4_none pointless
  | succ index =>
    cases input with
    | nil => rfl
    | cons c input =>
      have later := readIpv4_none fun member => pointless (List.mem_cons_of_mem c member)
      by_cases colon : c = ':' <;> simp [readSeparated, readGivenChar, colon, later]

theorem mem_joined {first : Bool} {groups : List Nat} (member : c ∈ joined first groups) :
    c = ':' ∨ digitValue 16 c ≠ none := by
  induction groups generalizing first with
  | nil => cases member
  | cons n groups ih =>
    simp only [joined, List.mem_append] at member
    rcases member with colon | digit | later
    · cases first with
      | true => cases colon
      | false => exact .inl (List.mem_singleton.mp colon)
    · exact .inr (digit_of_mem_toDigits (by decide) (by decide) digit)
    · exact ih later

theorem point_not_mem_joined (first : Bool) (groups : List Nat) : '.' ∉ joined first groups :=
  fun member => (mem_joined member).elim (by decide) fun digit => digit rfl

/-- Groups are read up to where no group follows. -/
theorem readGroups_joined (pointless : '.' ∉ rest) (stops : readDigits 16 rest = ([], rest))
    (ends : ∀ index, readSeparated ':' index (readNumber 16 4 65536 true) rest = none)
    {groups : List Nat} (small : ∀ n ∈ groups, n < 65536) {left index : Nat}
    (room : groups.length ≤ left) :
    readGroups left index (joined (decide (index = 0)) groups ++ rest) = (groups, false, rest) := by
  induction groups generalizing left index with
  | nil =>
    cases left with
    | zero => rfl
    | succ left => simp [readGroups, joined, readSeparated_none pointless, ends]
  | cons n groups ih =>
    cases left with
    | zero => cases room
    | succ left =>
      have isSmall := small n List.mem_cons_self
      have later := @ih (fun m member => small m (List.mem_cons_of_mem _ member)) left (index + 1)
        (Nat.le_of_succ_le_succ room)
      rw [decide_eq_false (Nat.succ_ne_zero index)] at later
      have absent := List.not_mem_append (point_not_mem_joined (decide (index = 0)) (n :: groups))
        pointless
      have stopsLater : readDigits 16 (joined false groups ++ rest) =
          ([], joined false groups ++ rest) := by
        cases groups with
        | nil => exact stops
        | cons m groups => rfl
      have reads : readSeparated ':' index (readNumber 16 4 65536 true)
          (joined (decide (index = 0)) (n :: groups) ++ rest) =
          some (n, joined false groups ++ rest) := by
        rw [← @readNumber_toDigits 16 n _ (by decide) (by decide) stopsLater 4 65536 true (by decide)
          isSmall isSmall]
        cases index <;> simp [readSeparated, readGivenChar, joined]
      simp only [readGroups, readSeparated_none absent, ite_self, reads, later]

end Groups

/-- The run is one of zeros. -/
def Zeros (all : List Nat) (run : Nat × Nat) : Prop :=
  all.take run.1 ++ (List.replicate run.2 0 ++ all.drop (run.1 + run.2)) = all

theorem zeros_zeroRun {all rest : List Nat} {current longest : Nat × Nat} {position : Nat}
    (isRest : all.drop position = rest) (now : Zeros all current)
    (ends : current.2 ≠ 0 → current.1 + current.2 = position) (best : Zeros all longest) :
    Zeros all (zeroRun current longest position rest) := by
  induction rest generalizing current longest position with
  | nil => exact best
  | cons segment rest ih =>
    have next : all.drop (position + 1) = rest := by
      rw [← List.tail_drop, isRest]
      rfl
    have better {run : Nat × Nat} (zeros : Zeros all run) :
        Zeros all (if longest.2 < run.2 then run else longest) := by
      split
      exacts [zeros, best]
    simp only [zeroRun]
    split
    next isZero =>
      subst isZero
      by_cases starts : current.2 = 0
      · have started : Zeros all (position, 1) := by simp [Zeros, next, ← isRest]
        rw [if_pos starts]
        exact ih next started (fun _ => rfl) (better started)
      · have grown : Zeros all (current.1, current.2 + 1) := by
          unfold Zeros at now ⊢
          rw [ends starts, isRest] at now
          rw [← Nat.add_assoc, ends starts, next, List.replicate_succ', List.append_assoc]
          exact now
        rw [if_neg starts]
        exact ih next grown (fun _ => congrArg (· + 1) (ends starts)) (better grown)
    · exact ih next (by simp [Zeros]) nofun best

theorem readIpv6_mapped {bits : BitVec 128}
    (mapped : (segments bits).take 6 = [0, 0, 0, 0, 0, 0xffff]) :
    readIpv6 ("::ffff:" ++ displayV4 (bits.setWidth 32)).toList = some (segments bits, []) := by
  have embeds := readIpv4_displayV4 (bits.setWidth 32)
  rw [String.toList_append]
  generalize (displayV4 (bits.setWidth 32)).toList = text at *
  have last : readGroups 6 1 (':' :: text) = ((segments bits).drop 6, true, []) := by
    rw [readGroups, if_pos (by decide),
      show readSeparated ':' 1 readIpv4 (':' :: text) = _ from embeds]
    simp [segments, octets, Nat.shiftRight_eq_div_pow]
    omega
  have tail : readGroups 7 0 ("ffff:".toList ++ text) =
      let (groups, embedded, rest) := readGroups 6 1 (':' :: text)
      (0xffff :: groups, embedded, rest) := rfl
  have head : readGroups 8 0 ("::ffff:".toList ++ text) = ([], false, "::ffff:".toList ++ text) := rfl
  rw [last] at tail
  rw [← List.take_append_drop 6 (segments bits), mapped]
  simp only [readIpv6, head]
  exact congrArg (fun tail => some (List.replicate (8 - tail.1.length) 0 ++ tail.1, tail.2.2)) tail

theorem readIpv6_display (bits : BitVec 128) :
    readIpv6 (display (.v6 bits)).toList = some (segments bits, []) := by
  have small : ∀ group ∈ segments bits, group < 65536 := by
    intro group member
    obtain ⟨shift, -, rfl⟩ := List.mem_map.mp member
    exact (bits.extractLsb' shift 16).isLt
  have length : (segments bits).length = 8 := rfl
  have whole {groups : List Nat} (part : ∀ group ∈ groups, group ∈ segments bits) {left : Nat}
      (room : groups.length ≤ left) :
      readGroups left 0 (joined true groups) = (groups, false, []) := by
    rw [← List.append_nil (joined true groups)]
    exact @readGroups_joined [] nofun rfl (fun index => by cases index <;> rfl) groups
      (fun n member => small n (part n member)) left 0 room
  simp only [display]
  split
  next mapped => exact readIpv6_mapped mapped
  split
  next gap =>
    have zeros : Zeros (segments bits) (zeroRun (0, 0) (0, 0) 0 (segments bits)) :=
      zeros_zeroRun rfl (by simp [Zeros]) (fun started => absurd rfl started) (by simp [Zeros])
    generalize zeroRun (0, 0) (0, 0) 0 (segments bits) = run at *
    obtain ⟨start, count⟩ := run
    have bound : start + count ≤ 8 := by
      have same := congrArg List.length zeros
      simp [length] at same gap
      omega
    have short : start < 8 := by
      simp only at gap
      omega
    have tail := @whole ((segments bits).drop (start + count)) (fun _ => List.mem_of_mem_drop)
      (7 - start) (by simp [length]; simp at gap; omega)
    have head := @readGroups_joined (':' :: ':' :: joined true ((segments bits).drop (start + count)))
      (by simp [point_not_mem_joined]) rfl (fun index => by cases index <;> rfl)
      ((segments bits).take start) (fun n member => small n (List.mem_of_mem_take member)) 8 0
      (by simp [length])
    have zeroes : 8 - start - (8 - (start + count)) = count := by omega
    simp only [String.toList_append, toList_displaySegments, List.append_assoc]
    rw [decide_eq_true rfl] at head
    change readIpv6 (joined true _ ++ ':' :: ':' :: joined true _) = _
    simp only [readIpv6, head, List.length_take, length, min_eq_left short.le, if_neg short.ne,
      readGivenChar, if_pos, Option.bind_some, Option.map_some, tail, List.length_drop, zeroes,
      Bool.false_eq_true, if_false, List.append_assoc]
    exact congrArg (fun groups => some (groups, [])) zeros
  · simp [readIpv6, toList_displaySegments, whole (fun _ => id) length.le, length]

theorem parseV4_displayV4 (bits : BitVec 32) : parseV4 (displayV4 bits) = some bits := by
  have bound := bits.isLt
  have value : BitVec.ofNat 32 ((octets bits).foldl (fun value octet => value * 256 + octet) 0) =
      bits := by
    apply BitVec.eq_of_toNat_eq
    simp [octets, Nat.shiftRight_eq_div_pow]
    omega
  simp [parseV4, readIpv4_displayV4, value]

theorem parseV6_display (bits : BitVec 128) : parseV6 (display (.v6 bits)) = some bits := by
  have bound := bits.isLt
  have value : BitVec.ofNat 128
      ((segments bits).foldl (fun value group => value * 65536 + group) 0) = bits := by
    apply BitVec.eq_of_toNat_eq
    simp [segments, Nat.shiftRight_eq_div_pow]
    omega
  simp [parseV6, readIpv6_display, value]

end IpAddr

end VisaService
