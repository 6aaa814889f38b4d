import Megalos.Library.LexOrder
import Megalos.StoreCalls

/-!
The texts that `_now_iso` stores.  `isoformat` leaves the fraction out when it is zero,
so two texts of one second may differ in length; SQLite compares them byte by byte.
-/

namespace Megalos

open KeyedTable LexOrder

def isLeap (year : Nat) : Bool := year % 4 == 0 && (year % 100 != 0 || year % 400 == 0)

def daysBeforeYear (year : Nat) : Nat :=
  (year - 1) * 365 + (year - 1) / 4 - (year - 1) / 100 + (year - 1) / 400

def daysInMonth (year month : Nat) : Nat :=
  if month = 2 then if isLeap year then 29 else 28
  else if month ∈ [4, 6, 9, 11] then 30
  else if 1 ≤ month ∧ month ≤ 12 then 31
  else 0

def daysBeforeMonth (year : Nat) : Nat → Nat
  | 0 => 0
  | month + 1 => daysBeforeMonth year month + daysInMonth year month

/-- A `datetime` whose zone is UTC. -/
structure UtcDatetime where
  year : Nat
  month : Nat
  day : Nat
  hour : Nat
  minute : Nat
  second : Nat
  microsecond : Nat
  yearRange : 1 ≤ year ∧ year ≤ 9999
  monthRange : 1 ≤ month ∧ month ≤ 12
  dayRange : 1 ≤ day ∧ day ≤ daysInMonth year month
  hourRange : hour < 24
  minuteRange : minute < 60
  secondRange : second < 60
  microsecondRange : microsecond < 1000000

namespace UtcDatetime

/-- The days from the first of January of the year 1 on, that day counted. -/
def toordinal (date : UtcDatetime) : Nat :=
  daysBeforeYear date.year + daysBeforeMonth date.year date.month + date.day

/-- The microseconds since the start of day 0. -/
def instant (date : UtcDatetime) : Timestamp :=
  (((date.toordinal * 24 + date.hour) * 60 + date.minute) * 60 + date.second) * 1000000 + date.microsecond

end UtcDatetime

/-- `%0nd`, for a number of no more than n digits. -/
def zeroPadded (width value : Nat) : List Char := (digits 10 width value).map Nat.digitChar

namespace UtcDatetime

def fraction (date : UtcDatetime) : List Char :=
  if date.microsecond = 0 then [] else '.' :: zeroPadded 6 date.microsecond

def isoformat (date : UtcDatetime) : String :=
  String.ofList
    (zeroPadded 4 date.year ++
      '-' :: (zeroPadded 2 date.month ++ '-' :: (zeroPadded 2 date.day ++ 'T' ::
      (zeroPadded 2 date.hour ++
        ':' :: (zeroPadded 2 date.minute ++ ':' :: (zeroPadded 2 date.second ++
        (date.fraction ++ ['+', '0', '0', ':', '0', '0'])))))))

end UtcDatetime

def utf8Bytes (text : List Char) : List UInt8 := text.flatMap String.utf8EncodeChar

def textCompare (left right : String) : Ordering :=
    compare (utf8Bytes left.toList) (utf8Bytes right.toList)

/-! The calendar. -/

def daysInYear (year : Nat) : Nat := if isLeap year then 366 else 365

theorem isLeap_iff (year : Nat) : isLeap year = true ↔ 4 ∣ year ∧ (¬100 ∣ year ∨ 400 ∣ year) := by
  simp only [isLeap, Bool.and_eq_true, Bool.or_eq_true, beq_iff_eq, bne_iff_ne,
    Nat.dvd_iff_mod_eq_zero, ne_eq]

theorem daysInYear_eq (year : Nat) : daysInYear year + (if 100 ∣ year then 1 else 0) =
    365 + (if 4 ∣ year then 1 else 0) + if 400 ∣ year then 1 else 0 := by
  have fours : 100 ∣ year → 4 ∣ year := by omega
  have hundreds : 400 ∣ year → 100 ∣ year := by omega
  simp only [daysInYear, isLeap_iff]
  grind

theorem daysBeforeYear_succ (index : Nat) :
    daysBeforeYear (index + 1) + daysInYear (index + 1) = daysBeforeYear (index + 1 + 1) := by
  have days := daysInYear_eq (index + 1)
  have hundreds : index / 100 ≤ index / 4 := by omega
  have once : (if 100 ∣ index + 1 then 1 else 0) ≤ 1 := by split <;> decide
  simp only [daysBeforeYear, Nat.add_sub_cancel, Nat.succ_div]
  omega

theorem daysBeforeMonth_next (year month : Nat) :
    daysBeforeMonth year month + daysInMonth year month ≤ daysBeforeMonth year (month + 1) := le_rfl

theorem daysBeforeMonth_last (year : Nat) : daysBeforeMonth year 13 = daysInYear year := by
  cases leap : isLeap year <;> simp [daysBeforeMonth, daysInMonth, daysInYear, leap]

theorem compare_succ (left right : Nat) : compare (left + 1) (right + 1) = compare left right := by
  rw [Nat.compare_eq_ite_lt, Nat.compare_eq_ite_lt]
  simp only [Nat.add_lt_add_iff_right]

theorem then_congr {left right : Nat} {rest other : Ordering}
    (alike : left = right → rest = other) :
    (compare left right).then rest = (compare left right).then other := by
  rcases Nat.lt_trichotomy left right with less | same | more
  · rw [Nat.compare_eq_lt.mpr less]
    rfl
  · rw [alike same]
  · rw [Nat.compare_eq_gt.mpr more]
    rfl

variable {date other : UtcDatetime}

theorem UtcDatetime.dayOfYear_lt (date : UtcDatetime) :
    daysBeforeMonth date.year date.month + (date.day - 1) < daysInYear date.year := by
  have last : daysBeforeMonth date.year (date.month + 1) ≤ daysBeforeMonth date.year 13 :=
    start_le (daysBeforeMonth_next date.year) (Nat.succ_le_succ date.monthRange.2)
  have next := daysBeforeMonth_next date.year date.month
  have range := date.dayRange
  rw [daysBeforeMonth_last] at last
  omega

theorem UtcDatetime.compare_dayOfYear (sameYear : date.year = other.year) :
    compare (daysBeforeMonth date.year date.month + (date.day - 1))
        (daysBeforeMonth other.year other.month + (other.day - 1)) =
      (compare date.month other.month).then (compare date.day other.day) := by
  have inside := date.dayRange
  have within := other.dayRange
  rw [← sameYear] at within ⊢
  rw [compare_places (daysBeforeMonth_next date.year) (by omega) (by omega),
    ← compare_succ (date.day - 1), Nat.sub_add_cancel inside.1, Nat.sub_add_cancel within.1]

theorem UtcDatetime.compare_toordinal (date other : UtcDatetime) :
    compare date.toordinal other.toordinal =
    (compare date.year other.year).then ((compare date.month other.month).then (compare date.day other.day)) := by
  have places : ∀ date : UtcDatetime, date.toordinal =
      daysBeforeYear (date.year - 1 + 1) + (daysBeforeMonth date.year date.month + (date.day - 1)) + 1 := by
    intro date
    have range := date.dayRange
    rw [toordinal, Nat.sub_add_cancel date.yearRange.1]
    omega
  have within : ∀ date : UtcDatetime,
      daysBeforeMonth date.year date.month + (date.day - 1) < daysInYear (date.year - 1 + 1) := by
    intro date
    rw [Nat.sub_add_cancel date.yearRange.1]
    exact date.dayOfYear_lt
  have years := @compare_places (fun index => daysBeforeYear (index + 1))
    (fun index => daysInYear (index + 1))
    (fun index => (daysBeforeYear_succ index).le) (date.year - 1) (other.year - 1) _ _ (within date)
      (within other)
  rw [places date, places other, compare_succ, years, ← compare_succ,
    Nat.sub_add_cancel date.yearRange.1, Nat.sub_add_cancel other.yearRange.1]
  exact then_congr UtcDatetime.compare_dayOfYear

def UtcDatetime.compareFields (date other : UtcDatetime) : Ordering :=
  (compare date.year other.year).then <| (compare date.month other.month).then <|
    (compare date.day other.day).then <| (compare date.hour other.hour).then <|
      (compare date.minute other.minute).then <| (compare date.second other.second).then <|
        compare date.microsecond other.microsecond

theorem UtcDatetime.compare_instant (date other : UtcDatetime) :
    compare date.instant other.instant = date.compareFields other := by
  unfold instant compareFields
  rw [compare_radix date.microsecondRange other.microsecondRange,
    compare_radix date.secondRange other.secondRange, compare_radix date.minuteRange other.minuteRange, compare_radix date.hourRange other.hourRange,
    UtcDatetime.compare_toordinal]
  simp only [Ordering.then_assoc]

/-! The texts. -/

def digitByte (digit : Nat) : UInt8 := 48 + digit.toUInt8

theorem digitChar_bytes :
    ∀ digit < 10, String.utf8EncodeChar (Nat.digitChar digit) = [digitByte digit] := by
  decide

theorem compare_digitByte : ∀ first < 10, ∀ second < 10,
    compare (digitByte first) (digitByte second) = compare first second := by
  decide

theorem utf8Bytes_append (text rest : List Char) :
    utf8Bytes (text ++ rest) = utf8Bytes text ++ utf8Bytes rest :=
  List.flatMap_append

theorem compare_mark (mark : Char) (rest other : List Char) :
    compare (utf8Bytes (mark :: rest)) (utf8Bytes (mark :: other)) = compare (utf8Bytes rest)
    (utf8Bytes other) := by
  change compare (utf8Bytes ([mark] ++ rest)) (utf8Bytes ([mark] ++ other)) = _
  rw [utf8Bytes_append, utf8Bytes_append, compare_append rfl,
    (Std.ReflCmp.compare_self : compare (utf8Bytes [mark]) (utf8Bytes [mark]) = .eq)]
  rfl

theorem zeroPadded_bytes (width value : Nat) :
    utf8Bytes (zeroPadded width value) = (digits 10 width value).map digitByte := by
  rw [zeroPadded, utf8Bytes, List.flatMap_map, List.map_eq_flatMap]
  exact List.flatMap_congr fun digit member => digitChar_bytes digit (digits_lt (by decide) member)

theorem compare_zeroPadded {width value number : Nat} (fits : value < 10 ^ width)
    (holds : number < 10 ^ width) (rest other : List Char) :
    compare (utf8Bytes (zeroPadded width value ++ rest))
    (utf8Bytes (zeroPadded width number ++ other)) =
      (compare value number).then (compare (utf8Bytes rest) (utf8Bytes other)) := by
  have faithful : ∀ first ∈ digits 10 width value, ∀ second ∈ digits 10 width number,
      compare (digitByte first) (digitByte second) = compare first second :=
        fun first member second there =>
    compare_digitByte first (digits_lt (by decide) member) second (digits_lt (by decide) there)
  rw [utf8Bytes_append, utf8Bytes_append,
    compare_append (by simp only [zeroPadded_bytes, List.length_map, digits_length]),
    zeroPadded_bytes, zeroPadded_bytes, compare_map faithful, compare_digits (by decide), Nat.mod_eq_of_lt fits,
    Nat.mod_eq_of_lt holds]

/-- The plus sign of the offset sorts before the dot of a fraction. -/
theorem UtcDatetime.compare_fraction (date other : UtcDatetime) (zone : List Char) :
    compare (utf8Bytes (date.fraction ++ '+' :: zone)) (utf8Bytes (other.fraction ++ '+' :: zone)) =
      compare date.microsecond other.microsecond := by
  have signs : ∀ rest : List Char,
      compare (utf8Bytes ('+' :: zone)) (utf8Bytes ('.' :: rest)) = .lt ∧
        compare (utf8Bytes ('.' :: rest)) (utf8Bytes ('+' :: zone)) = .gt := fun rest => ⟨rfl, rfl⟩
  unfold fraction
  by_cases whole : date.microsecond = 0 <;> by_cases even : other.microsecond = 0
  · rw [if_pos whole, if_pos even, whole, even]
    exact Std.ReflCmp.compare_self
  · rw [if_pos whole, if_neg even, whole, Nat.compare_eq_lt.mpr (Nat.pos_of_ne_zero even)]
    exact (signs _).1
  · rw [if_neg whole, if_pos even, even, Nat.compare_eq_gt.mpr (Nat.pos_of_ne_zero whole)]
    exact (signs _).2
  · rw [if_neg whole, if_neg even, List.cons_append, List.cons_append, compare_mark,
      compare_zeroPadded date.microsecondRange other.microsecondRange]
    have same : compare (utf8Bytes ('+' :: zone)) (utf8Bytes ('+' :: zone)) = .eq :=
      Std.ReflCmp.compare_self
    rw [same, Ordering.then_eq]

theorem UtcDatetime.textCompare_isoformat (date other : UtcDatetime) :
    textCompare date.isoformat other.isoformat = compare date.instant other.instant := by
  have bounds : ∀ date : UtcDatetime, date.year < 10 ^ 4 ∧ date.month < 10 ^ 2 ∧ date.day < 10 ^ 2 ∧
      date.hour < 10 ^ 2 ∧ date.minute < 10 ^ 2 ∧ date.second < 10 ^ 2 := by
    intro date
    have years := date.yearRange
    have months := date.monthRange
    have days := date.dayRange
    have short : daysInMonth date.year date.month ≤ 31 := by
      unfold daysInMonth
      repeat' split
      all_goals omega
    have hours := date.hourRange
    have minutes := date.minuteRange
    have seconds := date.secondRange
    omega
  obtain ⟨year, month, day, hour, minute, second⟩ := bounds date
  obtain ⟨year', month', day', hour', minute', second'⟩ := bounds other
  rw [compare_instant, textCompare, isoformat, isoformat, String.toList_ofList,
    String.toList_ofList, compare_zeroPadded year year', compare_mark, compare_zeroPadded month month', compare_mark,
    compare_zeroPadded day day', compare_mark, compare_zeroPadded hour hour', compare_mark,
    compare_zeroPadded minute minute', compare_mark, compare_zeroPadded second second', compare_fraction]
  rfl

/-! The queries over the stored texts. -/

structure StampedSession where
  session : Session
  updated : UtcDatetime
  completed : Option UtcDatetime
  updatedHolds : session.updatedAt = updated.instant
  completedHolds : session.completedAt = completed.map UtcDatetime.instant

namespace StampedSession

def updatedText (row : StampedSession) : String := row.updated.isoformat

def completedText (row : StampedSession) : Option String := row.completed.map UtcDatetime.isoformat

/-- `(current_step = ? AND completed_at < ?) OR (current_step != ? AND updated_at < ?)`. -/
def expiredByText (cutoff : String) (row : StampedSession) : Bool :=
  if row.session.currentStep = complete then row.completedText.any fun text =>
    textCompare text cutoff == .lt
  else textCompare row.updatedText cutoff == .lt

/-- `ORDER BY (current_step = ?) DESC, COALESCE(completed_at, updated_at) ASC`, over the texts. -/
def evictsBeforeByText (left right : StampedSession) : Bool :=
  let leftDone := left.session.currentStep == complete
  let rightDone := right.session.currentStep == complete
  if leftDone == rightDone then
    (textCompare (left.completedText.getD left.updatedText) (right.completedText.getD right.updatedText)).isLE
  else leftDone

theorem textCompare_lt (date other : UtcDatetime) :
    (textCompare date.isoformat other.isoformat == .lt) =
      decide (date.instant < other.instant) := by
  rw [UtcDatetime.textCompare_isoformat, Bool.eq_iff_iff, beq_iff_eq, decide_eq_true_eq,
    Nat.compare_eq_lt]

theorem expiredByText_eq (cutoff : UtcDatetime) (row : StampedSession) :
    row.expiredByText cutoff.isoformat =
    if row.session.currentStep = complete then row.session.completedAt.any (· < cutoff.instant)
    else decide (row.session.updatedAt < cutoff.instant) := by
  unfold expiredByText completedText updatedText
  rw [row.completedHolds, row.updatedHolds, textCompare_lt]
  cases row.completed with
  | none => rfl
  | some time =>
      rw [Option.map_some, Option.map_some, Option.any_some, Option.any_some, textCompare_lt]

/-- The session was completed, or last changed if it is not complete, before the time. -/
def OlderThan (row : StampedSession) (cutoff : UtcDatetime) : Prop :=
  if row.session.currentStep = complete then ∃ time, row.completed = some time ∧
    time.instant < cutoff.instant
  else row.updated.instant < cutoff.instant

theorem expiredByText_iff (cutoff : UtcDatetime) (row : StampedSession) :
    row.expiredByText cutoff.isoformat = true ↔ row.OlderThan cutoff := by
  rw [expiredByText_eq, row.completedHolds, row.updatedHolds, OlderThan]
  split
  · cases row.completed with
    | none => simp
    | some time =>
        rw [Option.map_some, Option.any_some, decide_eq_true_eq]
        constructor
        · exact fun earlier => ⟨time, rfl, earlier⟩
        · rintro ⟨other, same, earlier⟩
          cases same
          exact earlier
  · exact decide_eq_true_iff

theorem evictsBeforeByText_eq (left right : StampedSession) :
    evictsBeforeByText left right = evictsBefore left.session right.session := by
  have coalesced : ∀ row : StampedSession, row.completedText.getD row.updatedText =
      (row.completed.getD row.updated).isoformat := by
    intro row
    unfold completedText updatedText
    cases row.completed <;> rfl
  have holds : ∀ row : StampedSession, row.session.completedAt.getD row.session.updatedAt =
      (row.completed.getD row.updated).instant := by
    intro row
    rw [row.completedHolds, row.updatedHolds]
    cases row.completed <;> rfl
  unfold evictsBeforeByText evictsBefore
  rw [coalesced, coalesced, holds, holds, UtcDatetime.textCompare_isoformat]
  have order : ∀ early late : Nat, (compare early late).isLE = decide (early ≤ late) := by
    intro early late
    rw [Bool.eq_iff_iff, Nat.isLE_compare, decide_eq_true_eq]
  rw [order]

end StampedSession

/-- A store whose rows hold the texts of datetimes. -/
structure StampedStore where
  world : World
  rows : List StampedSession
  holds : rows.map StampedSession.session = world.sessions.rows

namespace StampedStore

/-- The ids `expire_sessions` deletes. -/
def expiredIds (store : StampedStore) (cutoff : String) : List SessionId :=
  (store.rows.filter (StampedSession.expiredByText cutoff)).map fun row => row.session.sessionId

/-- The ids `create_session` evicts. -/
def evictedIds (store : StampedStore) (cap : Nat) : List SessionId :=
  if cap ≤ store.rows.length then
    ((store.rows.insertionSort fun left right => StampedSession.evictsBeforeByText left right).take
      (store.rows.length + 1 - cap)).map fun row => row.session.sessionId
  else []

theorem rows_length (store : StampedStore) : store.rows.length = store.world.sessions.size := by
  have sizes := congrArg List.length store.holds
  rwa [List.length_map] at sizes

theorem expiredIds_eq (store : StampedStore) (cutoff : UtcDatetime) :
    store.world.expireSessions cutoff.instant =
      store.world.withoutSessions (store.expiredIds cutoff.isoformat) := by
  unfold World.expireSessions Table.select expiredIds
  rw [← store.holds, List.filter_map, List.map_map]
  congr 2
  apply List.filter_congr
  intro row _
  exact (row.expiredByText_eq cutoff).symm

theorem evictedIds_eq (store : StampedStore) (cap : Nat) :
    store.evictedIds cap = Megalos.evictedIds cap store.world.sessions := by
  have sorts : (store.rows.insertionSort fun left right =>
    StampedSession.evictsBeforeByText left right).map
      StampedSession.session =
        (store.rows.map StampedSession.session).insertionSort fun left right =>
          evictsBefore left right :=
    List.map_insertionSort _ _ _ _ fun left _ right _ =>
      by rw [StampedSession.evictsBeforeByText_eq]
  unfold evictedIds Megalos.evictedIds
  rw [rows_length, ← store.holds, ← sorts, ← List.map_take, List.map_map]
  rfl

theorem mem_expiredIds (store : StampedStore) (cutoff : UtcDatetime) (sid : SessionId) :
    sid ∈ store.expiredIds cutoff.isoformat ↔
      ∃ row ∈ store.rows, row.OlderThan cutoff ∧ row.session.sessionId = sid := by
  unfold expiredIds
  rw [List.mem_map]
  constructor
  · rintro ⟨row, member, same⟩
    rw [List.mem_filter, StampedSession.expiredByText_iff] at member
    exact ⟨row, member.1, member.2, same⟩
  · rintro ⟨row, member, older, same⟩
    refine ⟨row, ?_, same⟩
    rw [List.mem_filter, StampedSession.expiredByText_iff]
    exact ⟨member, older⟩

end StampedStore

/-- The stored texts sort chronologically, so that the queries over them expire the sessions that
are older than the cutoff and evict in the order of the times. -/
theorem stored_timestamps_sort_chronologically :
    (∀ date other : UtcDatetime,
      textCompare date.isoformat other.isoformat = compare date.instant other.instant) ∧
      (∀ (store : StampedStore) (cutoff : UtcDatetime),
        store.world.expireSessions cutoff.instant =
            store.world.withoutSessions (store.expiredIds cutoff.isoformat) ∧
          ∀ sid, sid ∈ store.expiredIds cutoff.isoformat ↔
            ∃ row ∈ store.rows, row.OlderThan cutoff ∧ row.session.sessionId = sid) ∧
      ∀ (store : StampedStore) (cap : Nat),
        store.evictedIds cap = evictedIds cap store.world.sessions := by
  refine ⟨UtcDatetime.textCompare_isoformat, ?_, StampedStore.evictedIds_eq⟩
  intro store cutoff
  exact ⟨store.expiredIds_eq cutoff, store.mem_expiredIds cutoff⟩

end Megalos
