import Oflops.Harness.ParamLoop
import Oflops.Lib.ArrayFill
import Oflops.Lib.MachineInt
import Mathlib.Data.List.TakeWhile

/-! The report of the kernel's packet generator (`report_pktgen_traffic_generator` in
`traffic_generator.c`): two lines of each device's status file are joined in one string, which is
reallocated for each part. A cell that has not been written holds no character. A write outside the
memory last allocated, or a size that is no `int`, has no result. -/

namespace Oflops.Traffic.PktgenReport
open Harness.ParamLoop Lib.ArrayFill Lib.CString Lib.MachineInt Lib.Record

/-! ### Reading the status file -/

/-- The characters up to a newline, at most `n`, and those behind them. -/
def takeLine : Nat → List Char → List Char × List Char
  | 0, stream => ([], stream)
  | _ + 1, [] => ([], [])
  | n + 1, c :: rest =>
    if c = '\n' then ([c], rest)
    else (c :: (takeLine n rest).1, (takeLine n rest).2)

def lineSize : Nat := 2048

/-- `fgets(line, len, status_file)`: the string in `line`, if there is one, and what is left of the
file. At the end of the file `line` stays as it is. -/
def fgets (source : Option (List Char) × List Char) : Option (List Char) × List Char :=
  if source.2 = [] then source
  else
    let (taken, rest) := takeLine (lineSize - 1) source.2
    (some (taken.takeWhile (· ≠ nul)), rest)

/-- `line[strlen(line)-1] = c`, the string up to that character. -/
def beforeLast (line : List Char) : Option (List Char) :=
  if line = [] then none else some line.dropLast

def directory : List Char := "/proc/net/pktgen/".toList

/-- What `snprintf(intf_file, 1024, ...)` leaves in `intf_file`. -/
def intfFile (dev : List Char) : List Char := (directory ++ dev).take (1024 - 1)

/-! ### Writing the report -/

def headerSize : Nat := 17

def header (dev : List Char) : List Char := ['d', 'e', 'v', ' '] ++ dev ++ [' ']

/-- `ret`, which is `NULL` at first, and `size`. -/
structure Report where
  ret : Option (List (Option Char))
  size : Nat

def Report.cells (report : Report) : List (Option Char) := report.ret.getD []

/-- A string as it lies in memory, with its terminator. -/
def stored (text : List Char) : List (Option Char) := (text ++ [nul]).map some

/-- Reallocate to `n` bytes, store a string `p` bytes in, and set `size`. -/
def place (report : Report) (n p : Nat) (text : List Char) (size : Nat) : Option Report := do
  let ret ← writeAt (realloc report.cells n) p (stored text)
  let size ← intCount size
  some ⟨some ret, size⟩

/-- `snprintf(&ret[size], sizeof("dev XXXXXXXXXXX "), "dev %s ", dev)`. -/
def printDev (report : Report) (dev : List Char) : Option Report := do
  let ret := realloc report.cells (report.size + headerSize)
  let ret ← printAt (some nul) ret report.size headerSize ((header dev).map some)
  let size ← intCount (report.size + (header dev).length)
  some ⟨some ret, size⟩

/-- `memcpy(ret + size, line, strlen(line) + 1)`. -/
def copyFirst (report : Report) (line : List Char) : Option Report :=
  place report (report.size + line.length + 1) report.size line (report.size + (line.length + 1))

/-- `memcpy(ret + size - 1, line, strlen(line) + 1)`. -/
def copySecond (report : Report) (line : List Char) : Option Report :=
  place report (report.size + line.length + 1) (report.size - 1) line
    (report.size + (line.length - 1))

/-- `dev` of a channel, and whether it has a generator (`det != NULL`). -/
structure Channel where
  dev : List Char
  det : Bool

structure State where
  report : Report
  line : Option (List Char)

def State.initial : State := ⟨⟨none, 0⟩, none⟩

/-- A turn of the loop over the channels; `fopen` gives the content of a file. -/
def turn (fopen : List Char → Option (List Char)) (state : State) (channel : Channel) :
    Option State :=
  if channel.det then do
    let file ← fopen (intfFile channel.dev)
    let skipped := fgets^[18] (state.line, file)
    let report ← printDev state.report channel.dev
    let read := fgets skipped
    let line ← read.1
    let line ← beforeLast line
    let report ← copyFirst report line
    let read := fgets (some line, read.2)
    let line ← read.1
    let line ← beforeLast line
    let report ← copySecond report (line ++ [','])
    some ⟨report, some (line ++ [','])⟩
  else some state

def reportPktgenTrafficGenerator (fopen : List Char → Option (List Char))
    (channels : List Channel) : Option (Option (List (Option Char))) :=
  (channels.foldlM (turn fopen) State.initial).map (·.report.ret)

/-! ### What the status files hold -/

/-- A line without its newline. -/
structure Line where
  text : List Char
  single : '\n' ∉ text
  plain : nul ∉ text
  short : text.length < 2047

def Line.whole (line : Line) : List Char := line.text ++ ['\n']

structure StatusFile where
  heading : List Line
  skipped : heading.length = 18
  first : Line
  second : Line
  rest : List Char

def StatusFile.content (file : StatusFile) : List Char :=
  file.heading.flatMap Line.whole ++ (file.first.whole ++ (file.second.whole ++ file.rest))

/-- A device name as the kernel allows it. -/
structure Device where
  name : List Char
  plain : nul ∉ name
  nonempty : 1 ≤ name.length
  limit : name.length ≤ 15

/-- A channel on a device. -/
structure Port where
  device : Device
  det : Bool

def Port.channel (port : Port) : Channel := ⟨port.device.name, port.det⟩

def proc (status : List Char → StatusFile) (path : List Char) : Option (List Char) :=
  if directory <+: path then some (status (path.drop directory.length)).content else none

def piece (status : List Char → StatusFile) (device : Device) : List Char :=
  header device.name ++ (status device.name).first.text ++ (status device.name).second.text ++ [',']

def joined (status : List Char → StatusFile) (ports : List Port) : List Char :=
  (ports.filter (·.det)).flatMap (piece status ·.device)

/-- The string that is returned joins the status of all channels. -/
def Joins (status : List Char → StatusFile) (ports : List Port) : Prop :=
  ∃ ret, reportPktgenTrafficGenerator (proc status) (ports.map Port.channel) = some (some ret) ∧
    textAt (some nul) ret 0 = some ((joined status ports).map some)

theorem takeLine_append {text : List Char} (single : '\n' ∉ text) {n : Nat}
    (short : text.length < n) (rest : List Char) :
    takeLine n (text ++ '\n' :: rest) = (text ++ ['\n'], rest) := by
  induction text generalizing n with
  | nil =>
    obtain ⟨n, rfl⟩ := Nat.exists_eq_succ_of_ne_zero (Nat.ne_of_gt short)
    rfl
  | cons first text ih =>
    obtain ⟨n, rfl⟩ := Nat.exists_eq_succ_of_ne_zero (Nat.ne_zero_of_lt short)
    have other : first ≠ '\n' := (List.ne_of_not_mem_cons single).symm
    rw [List.cons_append, takeLine, if_neg other,
      ih (List.not_mem_of_not_mem_cons single) (Nat.lt_of_succ_lt_succ short)]
    rfl

theorem fgets_line (line : Line) (before : Option (List Char)) (rest : List Char) :
    fgets (before, line.whole ++ rest) = (some line.whole, rest) := by
  have more : line.whole ++ rest ≠ [] := by simp [Line.whole]
  have visible : ∀ c ∈ line.whole, decide (c ≠ nul) = true := by
    intro c member
    refine decide_eq_true fun same => ?_
    rcases List.mem_append.mp member with inside | final
    · exact line.plain (same ▸ inside)
    · exact absurd (same ▸ List.mem_singleton.mp final) (by decide)
  have taken : takeLine (lineSize - 1) (line.whole ++ rest) = (line.whole, rest) := by
    rw [Line.whole, List.append_assoc]
    exact takeLine_append line.single line.short rest
  rw [fgets, if_neg more, taken]
  dsimp only
  rw [List.takeWhile_eq_self_iff.mpr visible]

theorem fgets_heading (heading : List Line) (before : Option (List Char)) (rest : List Char) :
    ∃ line, fgets^[heading.length] (before, heading.flatMap Line.whole ++ rest) = (line, rest) := by
  induction heading generalizing before with
  | nil => exact ⟨before, rfl⟩
  | cons first heading ih =>
    rw [List.length_cons, Function.iterate_succ_apply, List.flatMap_cons,
      List.append_assoc, fgets_line]
    exact ih (some first.whole)

theorem beforeLast_whole (line : Line) : beforeLast line.whole = some line.text := by
  rw [beforeLast, if_neg (by simp [Line.whole]), Line.whole, List.dropLast_concat]

theorem proc_intfFile (status : List Char → StatusFile) (device : Device) :
    proc status (intfFile device.name) = some (status device.name).content := by
  have short : (directory ++ device.name).length ≤ 1024 - 1 := by
    have limit := device.limit
    have size : directory.length = 17 := by decide
    rw [List.length_append]
    omega
  rw [intfFile, List.take_of_length_le short, proc, if_pos (List.prefix_append _ _), List.drop_left]

def describe (report : Report) (dev first second : List Char) : Option Report := do
  let report ← printDev report dev
  let report ← copyFirst report first
  copySecond report (second ++ [','])

theorem turn_device (status : List Char → StatusFile) (state : State) (device : Device) :
    turn (proc status) state ⟨device.name, true⟩ =
      (describe state.report device.name (status device.name).first.text
        (status device.name).second.text).map
          fun report => ⟨report, some ((status device.name).second.text ++ [','])⟩ := by
  obtain ⟨line, skipped⟩ := fgets_heading (status device.name).heading state.line
    ((status device.name).first.whole ++
      ((status device.name).second.whole ++ (status device.name).rest))
  rw [(status device.name).skipped] at skipped
  rw [turn, if_pos rfl, proc_intfFile, StatusFile.content]
  simp only [describe, skipped, fgets_line, beforeLast_whole, Option.bind_eq_bind, Option.bind_some,
    Option.map_eq_bind, Option.bind_assoc]
  rfl

/-! ### One part -/

theorem stored_length (text : List Char) : (stored text).length = text.length + 1 := by
  rw [stored, List.length_map, List.length_append, List.length_singleton]

theorem map_append_stored (text more : List Char) :
    text.map some ++ stored more = stored (text ++ more) := by
  rw [stored, stored, List.append_assoc, List.map_append, List.map_append, List.map_append]

theorem map_prefix_stored (text : List Char) : text.map some <+: stored text := by
  rw [stored, List.map_append]
  exact List.prefix_append _ _

section Place
variable {report after : Report} {front : List (Option Char)} {n p size : Nat} {text : List Char}

theorem place_some (kept : front <+: report.cells) (before : front.length ≤ p)
    (inside : p + (text.length + 1) ≤ n) (placed : place report n p text size = some after) :
    after.size = size ∧ size < 2 ^ 31 ∧ front <+: after.cells ∧
      (front.length = p → front ++ stored text <+: after.cells) := by
  have room : p + (stored text).length ≤ n := by rwa [stored_length]
  obtain ⟨ret, written, same, whole⟩ := writeAt_realloc kept before room
  rw [place, written, Option.bind_eq_bind, Option.bind_some] at placed
  obtain ⟨counted, fits, result⟩ := Option.bind_eq_some_iff.mp placed
  obtain ⟨below, rfl⟩ := intCount_eq_some.mp fits
  cases result
  exact ⟨rfl, below, same, whole⟩

theorem place_behind {before : List Char} (kept : before.map some <+: report.cells)
    (behind : before.length = p) (inside : p + (text.length + 1) ≤ n)
    (placed : place report n p text size = some after) :
    after.size = size ∧ size < 2 ^ 31 ∧ stored (before ++ text) <+: after.cells := by
  have length : (before.map some).length = p := by rw [List.length_map, behind]
  obtain ⟨sized, fits, -, whole⟩ := place_some kept (Nat.le_of_eq length) inside placed
  rw [← map_append_stored]
  exact ⟨sized, fits, whole length⟩

theorem place_fits (report : Report) (inside : p + (text.length + 1) ≤ n) (fits : size < 2 ^ 31) :
    ∃ after, place report n p text size = some after ∧ after.size = size := by
  have room : p + (stored text).length ≤ n := by rwa [stored_length]
  have nothing : [] <+: report.cells := List.nil_prefix
  obtain ⟨ret, written, -⟩ := writeAt_realloc nothing (Nat.zero_le p) room
  refine ⟨⟨some ret, size⟩, ?_, rfl⟩
  rw [place, written, Option.bind_eq_bind, Option.bind_some, intCount_eq_some.mpr ⟨fits, rfl⟩]
  rfl

end Place

/-- The name is cut off behind 16 characters, but counted whole. -/
theorem printDev_eq (report : Report) (dev : List Char) :
    printDev report dev =
      place report (report.size + headerSize) report.size ((header dev).take 16)
        (report.size + (header dev).length) := by
  have field : ((header dev).map some).take (headerSize - 1) ++ [some nul] =
      stored ((header dev).take 16) := by
    rw [stored, List.map_append, List.map_take]
    rfl
  rw [printDev, printAt, if_neg (by decide), field]
  rfl

theorem take_header_length (dev : List Char) : ((header dev).take 16).length + 1 ≤ headerSize := by
  have cut : ((header dev).take 16).length ≤ 16 := List.length_take_le _ _
  exact Nat.succ_le_succ cut

/-! ### One device -/

/-- The memory holds a text, with its terminator once there is some, and `size` is its length. -/
structure Holds (text : List Char) (report : Report) : Prop where
  size : report.size = text.length
  fits : text.length < 2 ^ 31
  held : text ≠ [] → stored text <+: report.cells

theorem Holds.front {text : List Char} {report : Report} (holds : Holds text report) :
    text.map some <+: report.cells := by
  by_cases empty : text = []
  · rw [empty]
    exact List.nil_prefix
  · exact (map_prefix_stored text).trans (holds.held empty)

/-- The memory holds a text that ends before the place at which more is written. -/
structure Broken (text : List Char) (report : Report) : Prop where
  size : text.length < report.size
  held : stored text <+: report.cells

section Device
variable {report after : Report} {text dev first second : List Char}

theorem describe_some (described : describe report dev first second = some after) :
    ∃ named copied, printDev report dev = some named ∧ copyFirst named first = some copied ∧
      copySecond copied (second ++ [',']) = some after := by
  obtain ⟨named, printed, rest⟩ := Option.bind_eq_some_iff.mp described
  obtain ⟨copied, one, two⟩ := Option.bind_eq_some_iff.mp rest
  exact ⟨named, copied, printed, one, two⟩

theorem header_length (dev : List Char) : (header dev).length = dev.length + 5 := by
  rw [header, List.length_append, List.length_append, List.length_singleton]
  change 4 + dev.length + 1 = _
  omega

theorem Holds.extend (holds : Holds text report) (short : dev.length ≤ 11)
    (described : describe report dev first second = some after) :
    Holds (text ++ (header dev ++ first ++ second ++ [','])) after := by
  obtain ⟨named, copied, printed, one, two⟩ := describe_some described
  have room : (header dev).length ≤ 16 := by rw [header_length]; omega
  rw [printDev_eq, List.take_of_length_le room] at printed
  have place := holds.size
  obtain ⟨sized, -, held⟩ := place_behind holds.front place.symm
    (Nat.add_le_add_left (Nat.succ_le_succ room) _) printed
  have begun := (map_prefix_stored _).trans held
  obtain ⟨counted, -, line⟩ := place_behind begun
    (by rw [sized, place, List.length_append]) (by omega) one
  have further := (map_prefix_stored _).trans line
  obtain ⟨total, fits, whole⟩ := place_behind further
    (by rw [counted, sized, place, List.length_append, List.length_append]; omega) (by omega) two
  have same : text ++ header dev ++ first ++ (second ++ [',']) =
      text ++ (header dev ++ first ++ second ++ [',']) := by
    simp only [List.append_assoc]
  rw [same] at whole
  have length : (text ++ (header dev ++ first ++ second ++ [','])).length = after.size := by
    rw [total, counted, sized, place, ← same]
    simp only [List.length_append, List.length_singleton]
    omega
  exact ⟨length.symm, by omega, fun _ => whole⟩

theorem describe_fits (report : Report) (dev first second : List Char)
    (fits : report.size + (header dev ++ first ++ second ++ [',']).length < 2 ^ 31) :
    ∃ after, describe report dev first second = some after := by
  simp only [List.length_append, List.length_singleton] at fits
  have comma : (second ++ [',']).length = second.length + 1 := List.length_append
  obtain ⟨named, printed, sized⟩ : ∃ named, printDev report dev = some named ∧
      named.size = report.size + (header dev).length := by
    rw [printDev_eq]
    exact place_fits report (Nat.add_le_add_left (take_header_length dev) _) (by omega)
  obtain ⟨copied, one, counted⟩ : ∃ copied, copyFirst named first = some copied ∧
      copied.size = named.size + (first.length + 1) := place_fits named (by omega) (by omega)
  obtain ⟨after, two, -⟩ : ∃ after, copySecond copied (second ++ [',']) = some after ∧
      after.size = copied.size + ((second ++ [',']).length - 1) :=
    place_fits copied (by omega) (by omega)
  refine ⟨after, ?_⟩
  simp only [describe, printed, one, two, Option.bind_eq_bind, Option.bind_some]

theorem Broken.copy (broken : Broken text report) {copied : Report}
    (one : copyFirst report first = some copied) (two : copySecond copied second = some after) :
    Broken text after := by
  have length := stored_length text
  have behind := broken.size
  obtain ⟨counted, -, kept, -⟩ := place_some broken.held (by omega) (by omega) one
  obtain ⟨total, -, still, -⟩ := place_some kept (by omega) (by omega) two
  exact ⟨by omega, still⟩

theorem Broken.keep (broken : Broken text report)
    (described : describe report dev first second = some after) : Broken text after := by
  obtain ⟨named, copied, printed, one, two⟩ := describe_some described
  have length := stored_length text
  have behind := broken.size
  rw [printDev_eq] at printed
  obtain ⟨counted, -, kept, -⟩ := place_some broken.held (by omega)
    (Nat.add_le_add_left (take_header_length dev) _) printed
  exact Broken.copy ⟨by omega, kept⟩ one two

/-- The terminator behind a longer name is never overwritten. -/
theorem Holds.cut (holds : Holds text report) (long : 11 < dev.length)
    (described : describe report dev first second = some after) :
    Broken (text ++ (header dev).take 16) after := by
  obtain ⟨named, copied, printed, one, two⟩ := describe_some described
  rw [printDev_eq] at printed
  have place := holds.size
  obtain ⟨sized, -, held⟩ := place_behind holds.front place.symm
    (Nat.add_le_add_left (take_header_length dev) _) printed
  refine Broken.copy ⟨?_, held⟩ one two
  rw [sized, place, List.length_append, List.length_take, header_length]
  omega

end Device

/-! ### All channels -/

section Run
variable (status : List Char → StatusFile)

/-- Whether the name of every device with a generator fits into the header. -/
def NamesFit (ports : List Port) : Prop :=
  ∀ port ∈ ports, port.det = true → port.device.name.length ≤ 11

theorem namesFit_cons {port : Port} {ports : List Port} :
    NamesFit (port :: ports) ↔
      (port.det = true → port.device.name.length ≤ 11) ∧ NamesFit ports := List.forall_mem_cons

theorem turn_idle (fopen : List Char → Option (List Char)) (state : State) {port : Port}
    (idle : port.det = false) : turn fopen state port.channel = some state := by
  rw [turn]
  exact if_neg (by simp [Port.channel, idle])

theorem turn_some {state next : State} {port : Port} (det : port.det = true)
    (went : turn (proc status) state port.channel = some next) :
    describe state.report port.device.name (status port.device.name).first.text
      (status port.device.name).second.text = some next.report := by
  rw [Port.channel, det, turn_device] at went
  obtain ⟨report, described, rfl⟩ := Option.map_eq_some_iff.mp went
  exact described

theorem joined_cons_idle {port : Port} (idle : port.det = false) (ports : List Port) :
    joined status (port :: ports) = joined status ports := by
  simp [joined, idle]

theorem joined_cons {port : Port} (det : port.det = true) (ports : List Port) :
    joined status (port :: ports) = piece status port.device ++ joined status ports := by
  simp [joined, det]

theorem Broken.run {text : List Char} {ports : List Port} {state final : State}
    (broken : Broken text state.report)
    (ran : (ports.map Port.channel).foldlM (turn (proc status)) state = some final) :
    Broken text final.report := by
  induction ports generalizing state with
  | nil =>
    cases ran
    exact broken
  | cons port ports ih =>
    rw [List.map_cons, List.foldlM_cons] at ran
    obtain ⟨next, went, rest⟩ := Option.bind_eq_some_iff.mp ran
    cases det : port.det with
    | false =>
      rw [turn_idle _ state det] at went
      cases went
      exact ih broken rest
    | true => exact ih (broken.keep (turn_some status det went)) rest

theorem Holds.run {text : List Char} {ports : List Port} {state final : State}
    (holds : Holds text state.report)
    (ran : (ports.map Port.channel).foldlM (turn (proc status)) state = some final) :
    (NamesFit ports ∧ Holds (text ++ joined status ports) final.report) ∨
      ∃ cut, Broken cut final.report ∧ cut.length < (text ++ joined status ports).length := by
  induction ports generalizing text state with
  | nil =>
    cases ran
    rw [joined, List.filter_nil, List.flatMap_nil, List.append_nil]
    exact Or.inl ⟨fun port member => absurd member List.not_mem_nil, holds⟩
  | cons port ports ih =>
    rw [List.map_cons, List.foldlM_cons] at ran
    obtain ⟨next, went, rest⟩ := Option.bind_eq_some_iff.mp ran
    cases det : port.det with
    | false =>
      rw [turn_idle _ state det] at went
      cases went
      rw [joined_cons_idle status det, namesFit_cons, det]
      simpa using ih holds rest
    | true =>
      have described := turn_some status det went
      rw [joined_cons status det, namesFit_cons, ← List.append_assoc]
      by_cases short : port.device.name.length ≤ 11
      · refine (ih (holds.extend short described) rest).imp_left fun ⟨names, held⟩ => ?_
        exact ⟨⟨fun _ => short, names⟩, held⟩
      · refine Or.inr ⟨_, (holds.cut (by omega) described).run status rest, ?_⟩
        have long := header_length port.device.name
        simp only [piece, List.length_append, List.length_take, List.length_singleton]
        omega

theorem Holds.run_fits {text : List Char} {ports : List Port} {state : State}
    (holds : Holds text state.report) (names : NamesFit ports)
    (fits : (text ++ joined status ports).length < 2 ^ 31) :
    ∃ final, (ports.map Port.channel).foldlM (turn (proc status)) state = some final ∧
      Holds (text ++ joined status ports) final.report := by
  induction ports generalizing text state with
  | nil =>
    rw [joined, List.filter_nil, List.flatMap_nil, List.append_nil]
    exact ⟨state, rfl, holds⟩
  | cons port ports ih =>
    rw [List.map_cons, List.foldlM_cons]
    rw [namesFit_cons] at names
    cases det : port.det with
    | false =>
      rw [joined_cons_idle status det] at fits ⊢
      rw [turn_idle _ state det]
      exact ih holds names.2 fits
    | true =>
      rw [joined_cons status det, ← List.append_assoc] at fits ⊢
      obtain ⟨report, described⟩ := describe_fits state.report port.device.name
        (status port.device.name).first.text (status port.device.name).second.text (by
          rw [holds.size, ← List.length_append]
          rw [List.length_append] at fits
          exact Nat.lt_of_add_right_lt fits)
      rw [Port.channel, det, turn_device, described]
      exact ih (holds.extend (names.1 det) described) names.2 fits

end Run

theorem holds_initial : Holds [] State.initial.report :=
  ⟨rfl, by decide, fun text => absurd rfl text⟩

theorem joined_plain (status : List Char → StatusFile) (ports : List Port) :
    nul ∉ joined status ports := by
  intro member
  obtain ⟨port, -, inside⟩ := List.mem_flatMap.mp member
  simp only [piece, header, List.mem_append, List.mem_singleton] at inside
  rcases inside with (((((dev | name) | blank) | first) | second) | comma)
  · exact absurd dev (by decide)
  · exact port.device.plain name
  · exact absurd blank (by decide)
  · exact (status port.device.name).first.plain first
  · exact (status port.device.name).second.plain second
  · exact absurd comma (by decide)

theorem joined_ne_nil (status : List Char → StatusFile) {ports : List Port} {port : Port}
    (member : port ∈ ports) (det : port.det = true) : joined status ports ≠ [] := by
  have some' : 'd' ∈ joined status ports := by
    refine List.mem_flatMap.mpr ⟨port, List.mem_filter.mpr ⟨member, det⟩, ?_⟩
    simp [piece, header]
  exact List.ne_nil_of_mem some'

theorem textAt_stored {text : List Char} (plain : nul ∉ text) {cells : List (Option Char)}
    (held : stored text <+: cells) : textAt (some nul) cells 0 = some (text.map some) := by
  obtain ⟨rest, rfl⟩ := held
  have absent : some nul ∉ text.map some := by
    intro member
    obtain ⟨c, inside, same⟩ := List.mem_map.mp member
    exact plain (Option.some.inj same ▸ inside)
  rw [textAt, List.drop_zero, stored, List.map_append, List.append_assoc]
  exact chars_append absent rest

theorem Broken.text_length {cut : List Char} {report : Report} (broken : Broken cut report)
    {found : List (Option Char)} (read : textAt (some nul) report.cells 0 = some found) :
    found.length ≤ cut.length := by
  obtain ⟨rest, split⟩ := broken.held
  rw [textAt, List.drop_zero, ← split, stored, List.map_append, List.append_assoc] at read
  have short := chars_length_le read
  rwa [List.length_map] at short

/-- The status of all channels is joined exactly if there is one, the names have no more than 11
characters, and the length of the string is an `int`. -/
theorem joins_iff (status : List Char → StatusFile) (ports : List Port) :
    Joins status ports ↔
      (∃ port ∈ ports, port.det = true) ∧ NamesFit ports ∧
      (joined status ports).length < 2 ^ 31 := by
  constructor
  · intro ⟨ret, reported, text⟩
    obtain ⟨final, ran, returned⟩ := Option.map_eq_some_iff.mp reported
    have cells : final.report.cells = ret := by rw [Report.cells, returned, Option.getD_some]
    have generator : ∃ port ∈ ports, port.det = true := by
      by_contra none'
      have idle : ∀ channel ∈ ports.map Port.channel,
          turn (proc status) State.initial channel = some State.initial := by
        intro channel member
        obtain ⟨port, here, rfl⟩ := List.mem_map.mp member
        exact turn_idle _ _ (Bool.eq_false_iff.mpr fun det => none' ⟨port, here, det⟩)
      rw [foldlM_skipped idle] at ran
      cases ran
      cases returned
    rcases holds_initial.run status ran with ⟨names, holds⟩ | ⟨cut, broken, short⟩
    · exact ⟨generator, names, holds.fits⟩
    · have length := broken.text_length (cells ▸ text)
      rw [List.length_map] at length
      exact absurd length (Nat.not_le.mpr short)
  · intro ⟨⟨port, member, det⟩, names, fits⟩
    obtain ⟨final, ran, holds⟩ := holds_initial.run_fits status names fits
    have held := holds.held (joined_ne_nil status member det)
    cases returned : final.report.ret with
    | none =>
      have empty := held.length_le
      rw [Report.cells, returned, stored_length] at empty
      exact absurd empty (Nat.not_succ_le_zero _)
    | some ret =>
      rw [Report.cells, returned] at held
      refine ⟨ret, ?_, textAt_stored (joined_plain status ports) held⟩
      rw [reportPktgenTrafficGenerator, ran, Option.map_some, returned]

def longName : Device where
  name := "enp0s20f0u10".toList
  plain := by decide
  nonempty := by decide
  limit := by decide

def smallStatus : StatusFile where
  heading := List.replicate 18 ⟨['x'], by decide, by decide, by decide⟩
  skipped := rfl
  first := ⟨['a'], by decide, by decide, by decide⟩
  second := ⟨['b'], by decide, by decide, by decide⟩
  rest := []

def reportText (fopen : List Char → Option (List Char)) (channels : List Channel) :
    Option (List (Option Char)) := do
  let ret ← reportPktgenTrafficGenerator fopen channels
  let ret ← ret
  textAt (some nul) ret 0

/-- The string ends behind the name. -/
theorem longName_cut :
    reportText (proc fun _ => smallStatus) [⟨longName.name, true⟩] =
        some ("dev enp0s20f0u10".toList.map some) ∧
      ¬ Joins (fun _ => smallStatus) [⟨longName, true⟩] := by
  have cut : reportText (proc fun _ => smallStatus) [⟨longName.name, true⟩] =
      some ("dev enp0s20f0u10".toList.map some) := by decide +kernel
  refine ⟨cut, ?_⟩
  intro ⟨ret, reported, text⟩
  change reportPktgenTrafficGenerator (proc fun _ => smallStatus)
    [⟨longName.name, true⟩] = _ at reported
  rw [reportText, reported] at cut
  have same := text.symm.trans cut
  exact absurd same (by decide)

end Oflops.Traffic.PktgenReport
