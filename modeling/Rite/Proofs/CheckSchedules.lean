import Rite.Conformance.Check
import Mathlib.Data.List.Nodup

/-!
# Cases shared by several workers

The cases of a directory need not be run one after the other.  Here any number of workers share them:
a worker takes the first case of a common queue, runs it, files the report and comes back, and it stops
when it finds the queue empty.  Which worker acts next is left to a schedule.

No case is lost and none is run twice, since a move only passes a case on: the reports still to come and
those filed are at all times a rearrangement of the same list (`Pool.Move.reports_perm`).  Each move uses
up one unit of work (`Pool.Move.work`), so every schedule comes to an end.  What the workers file in some
order becomes one list by sorting, because different cases have reports of different names.
-/

namespace Rite.Conformance

/-! ## Names of cases and of reports -/

/-- The names that belong to cases which pass the filter: a stem before the extension, and the filter
somewhere in the name. -/
def Wanted (filter : Option String) (name : String) : Prop :=
  (∃ stem, stem ≠ "" ∧ name = stem ++ ".rb") ∧
    ∀ part, filter = some part → part.toList <:+: name.toList

theorem splitExtension_append (stem : String) (h : stem ≠ "") :
    splitExtension (stem ++ ".rb") = some (stem, "rb") := by
  have hback : (stem ++ ".rb").toList.reverse = 'b' :: 'r' :: '.' :: stem.toList.reverse := by simp
  have hne : stem.toList.reverse ≠ [] := by simpa using h
  obtain ⟨c, rest, hstem⟩ := List.exists_cons_of_ne_nil hne
  have hforth : (c :: rest).reverse = stem.toList := by rw [← hstem, List.reverse_reverse]
  have hdrop : ('b' :: 'r' :: '.' :: c :: rest).dropWhile (· ≠ '.') = '.' :: c :: rest := by
    simp [List.dropWhile]
  have htake : ('b' :: 'r' :: '.' :: c :: rest).takeWhile (· ≠ '.') = ['b', 'r'] := by
    simp [List.takeWhile]
  simp only [splitExtension, hback, hstem, hdrop, htake, hforth, String.ofList_toList]
  rfl

theorem eq_append_of_splitExtension {name stem extension : String}
    (h : splitExtension name = some (stem, extension)) :
    stem ≠ "" ∧ name = stem ++ "." ++ extension := by
  simp only [splitExtension] at h
  split at h
  case h_2 => cases h
  case h_1 dot c rest hdrop =>
    obtain ⟨rfl, rfl⟩ := Prod.mk.inj (Option.some.inj h)
    -- The dropping stops at the dot, and what was taken and what was dropped make up the name.
    have hne : name.toList.reverse.dropWhile (· ≠ '.') ≠ [] := by rw [hdrop]; simp
    have hdot : dot = '.' := by
      have hhead := List.head_dropWhile_not _ hne
      simp only [hdrop, List.head_cons] at hhead
      simpa using hhead
    have hname : name.toList = (name.toList.reverse.takeWhile (· ≠ '.') ++ dot :: c :: rest).reverse := by
      rw [← hdrop, List.takeWhile_append_dropWhile, List.reverse_reverse]
    refine ⟨by simp [← String.toList_inj], ?_⟩
    rw [← String.toList_inj]
    exact hname.trans (by simp [hdot])

theorem caseStem?_eq_some {name stem : String} :
    caseStem? name = some stem ↔ stem ≠ "" ∧ name = stem ++ ".rb" := by
  constructor
  · intro h
    simp only [caseStem?] at h
    split at h
    case h_2 => cases h
    case h_1 stem' extension hsplit =>
      split at h
      · next hrb =>
        cases h
        obtain ⟨hstem, hname⟩ := eq_append_of_splitExtension hsplit
        exact ⟨hstem, by rw [hname, hrb, String.append_assoc]; rfl⟩
      · cases h
  · rintro ⟨hstem, rfl⟩
    simp [caseStem?, splitExtension_append stem hstem]

theorem occursIn_iff (part : List Char) (text : List Char) :
    occursIn part text = true ↔ part <:+: text := by
  induction text with
  | nil => simp [occursIn]
  | cons c rest ih => simp [occursIn, List.infix_cons_iff, ih, List.isPrefixOf_iff_prefix]

theorem isWanted_iff (filter : Option String) (name : String) :
    isWanted filter name = true ↔ Wanted filter name := by
  have hstem : (caseStem? name).isSome = true ↔ ∃ stem, stem ≠ "" ∧ name = stem ++ ".rb" := by
    simp only [Option.isSome_iff_exists, caseStem?_eq_some]
  have hpart : passes filter name = true ↔
      ∀ part, filter = some part → part.toList <:+: name.toList := by
    cases filter <;> simp [passes, occursIn_iff]
  simp only [isWanted, Bool.and_eq_true, hstem, hpart, Wanted]

theorem imageName_append (stem : String) (h : stem ≠ "") :
    imageName (stem ++ ".rb") = stem ++ ".mrb" := by
  simp [imageName, caseStem?_eq_some.2 ⟨h, rfl⟩]

/-- The images of different cases have different names. -/
theorem imageName_inj {x y : String} {filter : Option String} (hx : Wanted filter x)
    (hy : Wanted filter y) (h : imageName x = imageName y) : x = y := by
  obtain ⟨⟨s, hs, rfl⟩, -⟩ := hx
  obtain ⟨⟨t, ht, rfl⟩, -⟩ := hy
  rw [imageName_append s hs, imageName_append t ht] at h
  have hst : s = t := by simpa [← String.toList_inj] using h
  rw [hst]

@[simp] theorem runCase_name (host : Host) (tools : Toolchain) (limits : Limits) (dir name : String) :
    (runCase host tools limits dir name).name = imageName name := by
  rw [runCase]
  split <;> rfl

/-! ## Sorting -/

theorem nameLE_iff (x y : String) : nameLE x y = true ↔ x ≤ y := by
  rw [nameLE, Bool.not_eq_true', decide_eq_false_iff_not, String.not_lt]

theorem nameLE_trans (x y z : String) (hxy : nameLE x y = true) (hyz : nameLE y z = true) :
    nameLE x z = true := by
  rw [nameLE_iff] at *
  exact String.le_trans hxy hyz

theorem nameLE_total (x y : String) : (nameLE x y || nameLE y x) = true := by
  rw [Bool.or_eq_true, nameLE_iff, nameLE_iff]
  exact String.le_total x y

/-- The order in which a directory is listed does not matter. -/
theorem discover_perm {names listing : List String} (h : listing.Perm names)
    (filter : Option String) : discover listing filter = discover names filter := by
  have hsorted : ∀ files : List String, (files.mergeSort nameLE).Pairwise (nameLE · · = true) :=
    List.pairwise_mergeSort nameLE_trans nameLE_total
  refine List.Perm.eq_of_pairwise ?_ (hsorted _) (hsorted _) ?_
  · intro x y _ _ hxy hyx
    exact String.le_antisymm ((nameLE_iff x y).1 hxy) ((nameLE_iff y x).1 hyx)
  · exact ((List.mergeSort_perm _ _).trans (h.filter _)).trans (List.mergeSort_perm _ _).symm

/-- Reports with different names, once sorted, stand in strictly ascending order of their names. -/
theorem pairwise_lt_mergeSort {reports : List Report} (h : (reports.map (·.name)).Nodup) :
    (reports.mergeSort reportLE).Pairwise (·.name < ·.name) := by
  have htrans : ∀ x y z : Report, reportLE x y = true → reportLE y z = true → reportLE x z = true :=
    fun x y z => nameLE_trans x.name y.name z.name
  have htotal : ∀ x y : Report, (reportLE x y || reportLE y x) = true :=
    fun x y => nameLE_total x.name y.name
  have hle := List.pairwise_mergeSort htrans htotal reports
  have hne : (reports.mergeSort reportLE).Pairwise (·.name ≠ ·.name) := by
    rw [← List.pairwise_map]
    exact ((List.mergeSort_perm reports reportLE).map _).nodup_iff.2 h
  refine hle.imp₂ (fun x y hxy hne => ?_) hne
  by_contra hlt
  exact hne (String.le_antisymm ((nameLE_iff _ _).1 hxy) (String.not_lt.1 hlt))

/-- Sorting brings reports with different names into one order, whatever order they came in. -/
theorem mergeSort_eq_of_perm {reports reports' : List Report} (hperm : reports.Perm reports')
    (h : (reports'.map (·.name)).Nodup) :
    reports.mergeSort reportLE = reports'.mergeSort reportLE := by
  have h' : (reports.map (·.name)).Nodup := (hperm.map _).nodup_iff.2 h
  refine List.Perm.eq_of_pairwise ?_ (pairwise_lt_mergeSort h') (pairwise_lt_mergeSort h) ?_
  · intro x y _ _ hxy hyx
    exact absurd hyx (String.lt_asymm hxy)
  · exact ((List.mergeSort_perm _ _).trans hperm).trans (List.mergeSort_perm _ _).symm

/-! ## Workers -/

/-- Where a worker stands. -/
inductive Worker where
  | idle
  | running (name : String)
  | reporting (report : Report)
  | stopped
  deriving DecidableEq

/-- The reports that are still to come from a worker. -/
def Worker.pending (run : String → Report) : Worker → List Report
  | .running name => [run name]
  | .reporting report => [report]
  | .idle | .stopped => []

/-- The moves a worker needs until it stops, if it finds no more cases. -/
def Worker.work : Worker → Nat
  | .stopped => 0
  | .idle => 1
  | .reporting _ => 2
  | .running _ => 3

/-- The moves that workers need until all have stopped, if they find no more cases. -/
def Worker.workOfAll : List Worker → Nat
  | [] => 0
  | w :: rest => w.work + workOfAll rest

@[simp] theorem Worker.workOfAll_append (ws ws' : List Worker) :
    workOfAll (ws ++ ws') = workOfAll ws + workOfAll ws' := by
  induction ws with
  | nil => simp [workOfAll]
  | cons w rest ih =>
    rw [List.cons_append, workOfAll, workOfAll, ih]
    omega

theorem Worker.workOfAll_replicate_idle (count : Nat) :
    workOfAll (List.replicate count .idle) = count := by
  induction count with
  | zero => rfl
  | succ count ih =>
    rw [List.replicate_succ, workOfAll, ih, work]
    omega

/-- The workers with what they share: the cases that nobody has taken and the reports filed. -/
structure Pool where
  queue : List String
  workers : List Worker
  reports : List Report := []
  deriving DecidableEq

namespace Pool

variable {run : String → Report} {pool pool' : Pool}

/-- At least one worker is set to work, and all begin idle. -/
def start (cases : List String) (jobs : Nat) : Pool :=
  { queue := cases, workers := List.replicate (max jobs 1) .idle }

/-- The move of the worker at `i`.  A worker that has stopped has no move. -/
def move? (run : String → Report) (pool : Pool) (i : Nat) : Option Pool :=
  match pool.workers[i]?, pool.queue with
  | some .idle, name :: rest =>
    some { pool with queue := rest, workers := pool.workers.set i (.running name) }
  | some .idle, [] => some { pool with workers := pool.workers.set i .stopped }
  | some (.running name), _ =>
    some { pool with workers := pool.workers.set i (.reporting (run name)) }
  | some (.reporting report), _ =>
    some { pool with workers := pool.workers.set i .idle, reports := pool.reports ++ [report] }
  | some .stopped, _ | none, _ => none

/-- The moves of a schedule, which names the worker of each. -/
def play? (run : String → Report) : List Nat → Pool → Option Pool
  | [], pool => some pool
  | i :: rest, pool => (pool.move? run i).bind (play? run rest)

/-- All workers have stopped. -/
def Finished (pool : Pool) : Prop := ∀ w ∈ pool.workers, w = .stopped

instance : Decidable pool.Finished := inferInstanceAs (Decidable (∀ w ∈ pool.workers, _))

/-- What is returned once all workers have stopped. -/
def returned (pool : Pool) : List Report := pool.reports.mergeSort reportLE

/-- What one move can do to a pool. -/
inductive Move (run : String → Report) : Pool → Pool → Prop where
  | take (name rest before after reports) :
      Move run ⟨name :: rest, before ++ .idle :: after, reports⟩
        ⟨rest, before ++ .running name :: after, reports⟩
  | stop (before after reports) :
      Move run ⟨[], before ++ .idle :: after, reports⟩ ⟨[], before ++ .stopped :: after, reports⟩
  | run (queue name before after reports) :
      Move run ⟨queue, before ++ .running name :: after, reports⟩
        ⟨queue, before ++ .reporting (run name) :: after, reports⟩
  | file (queue report before after reports) :
      Move run ⟨queue, before ++ .reporting report :: after, reports⟩
        ⟨queue, before ++ .idle :: after, reports ++ [report]⟩

theorem move_of_move? {i : Nat} (h : pool.move? run i = some pool') : Move run pool pool' := by
  obtain ⟨queue, workers, reports⟩ := pool
  -- The workers before and after the one that moves stay as they are.
  have hset : ∀ {w : Worker}, workers[i]? = some w → ∀ w', ∃ before after,
      workers = before ++ w :: after ∧ workers.set i w' = before ++ w' :: after := by
    intro w hw w'
    obtain ⟨hi, rfl⟩ := List.getElem?_eq_some_iff.1 hw
    obtain ⟨before, after, hworkers, -, hafter⟩ := List.exists_of_set hi
    exact ⟨before, after, hworkers, hafter⟩
  simp only [move?] at h
  split at h
  case h_1 name rest hw =>
    cases h
    obtain ⟨before, after, hworkers, hafter⟩ := hset hw (.running name)
    rw [hafter, hworkers]
    exact .take name rest before after reports
  case h_2 hw =>
    cases h
    obtain ⟨before, after, hworkers, hafter⟩ := hset hw .stopped
    rw [hafter, hworkers]
    exact .stop before after reports
  case h_3 name hw =>
    cases h
    obtain ⟨before, after, hworkers, hafter⟩ := hset hw (.reporting (run name))
    rw [hafter, hworkers]
    exact .run _ name before after reports
  case h_4 report hw =>
    cases h
    obtain ⟨before, after, hworkers, hafter⟩ := hset hw .idle
    rw [hafter, hworkers]
    exact .file _ report before after reports
  all_goals cases h

/-! ## What a move keeps -/

/-- The reports on the cases of a pool: those not begun, those begun and those filed. -/
def allReports (run : String → Report) (pool : Pool) : List Report :=
  pool.queue.map run ++ pool.workers.flatMap (·.pending run) ++ pool.reports

theorem Move.reports_perm (h : Move run pool pool') :
    (pool'.allReports run).Perm (pool.allReports run) := by
  rw [List.perm_iff_count]
  intro r
  cases h <;> simp [allReports, Worker.pending, List.count_cons] <;> omega

/-- The moves that a pool has left. -/
def work (pool : Pool) : Nat := 3 * pool.queue.length + Worker.workOfAll pool.workers

theorem Move.work (h : Move run pool pool') : pool'.work + 1 = pool.work := by
  cases h <;> simp [Pool.work, Worker.workOfAll, Worker.work] <;> omega

/-- No worker has stopped while there was a case to take, and there is a worker. -/
def Attended (pool : Pool) : Prop :=
  pool.workers ≠ [] ∧ (.stopped ∈ pool.workers → pool.queue = [])

theorem Move.attended (h : Move run pool pool') (ha : pool.Attended) : pool'.Attended := by
  obtain ⟨-, hstop⟩ := ha
  refine ⟨by cases h <;> simp, fun hw => ?_⟩
  cases h with
  | take name rest before after reports =>
    have : name :: rest = [] := hstop (by simpa using hw)
    cases this
  | stop => rfl
  | run => exact hstop (by simpa using hw)
  | file => exact hstop (by simpa using hw)

/-! ## What a schedule keeps -/

theorem play?_induction {P : Pool → Prop} {schedule : List Nat}
    (h : pool.play? run schedule = some pool') (hstart : P pool)
    (hmove : ∀ {p p'}, Move run p p' → P p → P p') : P pool' := by
  induction schedule generalizing pool with
  | nil => cases h; exact hstart
  | cons i rest ih =>
    obtain ⟨next, hnext, hrest⟩ := Option.bind_eq_some_iff.1 h
    exact ih hrest (hmove (move_of_move? hnext) hstart)

theorem work_play? {schedule : List Nat} (h : play? run schedule pool = some pool') :
    pool'.work + schedule.length = pool.work := by
  induction schedule generalizing pool with
  | nil => cases h; rfl
  | cons i rest ih =>
    obtain ⟨next, hnext, hrest⟩ := Option.bind_eq_some_iff.1 h
    have hone := (move_of_move? hnext).work
    have hmore := ih hrest
    rw [List.length_cons]
    omega

theorem work_start (cases : List String) (jobs : Nat) :
    (start cases jobs).work = 3 * cases.length + max jobs 1 := by
  rw [work, start, Worker.workOfAll_replicate_idle]

/-- Some worker has a move as long as not all have stopped. -/
theorem exists_move? (h : ¬ pool.Finished) : ∃ i, (pool.move? run i).isSome := by
  simp only [Finished, not_forall] at h
  obtain ⟨w, hw, hne⟩ := h
  obtain ⟨i, hi⟩ := List.mem_iff_getElem?.1 hw
  refine ⟨i, ?_⟩
  cases w with
  | stopped => exact absurd rfl hne
  | idle => cases hq : pool.queue <;> simp [move?, hi, hq]
  | running => simp [move?, hi]
  | reporting => simp [move?, hi]

/-- When all workers have stopped, all reports are filed. -/
theorem allReports_of_finished (h : pool.Finished) (ha : pool.Attended) :
    pool.allReports run = pool.reports := by
  obtain ⟨hne, hstop⟩ := ha
  have hqueue : pool.queue = [] := by
    obtain ⟨w, hw⟩ := List.exists_mem_of_ne_nil _ hne
    exact hstop (h w hw ▸ hw)
  have hpending : pool.workers.flatMap (·.pending run) = [] := by
    rw [List.flatMap_eq_nil_iff]
    intro w hw
    rw [h w hw, Worker.pending]
  simp [allReports, hqueue, hpending]

theorem reports_perm_of_finished {cases : List String} {jobs : Nat} {schedule : List Nat}
    (h : play? run schedule (start cases jobs) = some pool) (hfin : pool.Finished) :
    pool.reports.Perm (cases.map run) := by
  have hattended : pool.Attended := by
    refine play?_induction h ⟨?_, ?_⟩ Move.attended
    · simp [start]
    · simp [start]
  have hperm : (pool.allReports run).Perm ((start cases jobs).allReports run) :=
    play?_induction (P := fun p => (p.allReports run).Perm _) h (.refl _)
      fun hmove hp => hmove.reports_perm.trans hp
  rw [allReports_of_finished hfin hattended] at hperm
  have hidle : (List.replicate (max jobs 1) Worker.idle).flatMap (·.pending run) = [] := by
    rw [List.flatMap_eq_nil_iff]
    intro w hw
    rw [List.eq_of_mem_replicate hw, Worker.pending]
  simpa only [allReports, start, hidle, List.append_nil] using hperm

end Pool

/-! ## The reports of a directory -/

theorem nodup_names_discover (host : Host) (tools : Toolchain) (limits : Limits) (dir : String)
    (filter : Option String) {names : List String} (h : names.Nodup) :
    (((discover names filter).map (runCase host tools limits dir)).map (·.name)).Nodup := by
  have hperm : (discover names filter).Perm (names.filter (isWanted filter)) :=
    List.mergeSort_perm _ _
  have hnames : ((discover names filter).map (runCase host tools limits dir)).map (·.name) =
      (discover names filter).map imageName := by
    simp only [List.map_map, Function.comp_def, runCase_name]
  rw [hnames]
  refine List.Nodup.map_on ?_ (hperm.nodup_iff.2 (h.filter _))
  intro x hx y hy hxy
  have hwanted : ∀ {z}, z ∈ discover names filter → Wanted filter z := fun hz =>
    (isWanted_iff filter _).1 (List.mem_filter.1 (hperm.mem_iff.1 hz)).2
  exact imageName_inj (hwanted hx) (hwanted hy) hxy

/-- A directory has one report for every case that passes the filter and no others, in strictly
ascending order of their names.  However it is listed, however many workers share the cases and
however they take turns, they come to an end, and then they return the same reports. -/
theorem check_any_schedule (host : Host) (tools : Toolchain) (limits : Limits) (dir : String)
    (filter : Option String) {names : List String} (hlist : host.list dir = .ok names)
    (hdistinct : names.Nodup) :
    ∃ reports, check host tools limits dir filter = .ok reports ∧
      (∀ name, isWanted filter name = true ↔ Wanted filter name) ∧
      reports.Perm ((names.filter (isWanted filter)).map (runCase host tools limits dir)) ∧
      reports.Pairwise (·.name < ·.name) ∧
      ∀ listing, listing.Perm names → ∀ jobs schedule pool,
        (Pool.start (discover listing filter) jobs).play? (runCase host tools limits dir) schedule =
          some pool →
        schedule.length ≤ 3 * (discover listing filter).length + max jobs 1 ∧
        (¬ pool.Finished → ∃ i, (pool.move? (runCase host tools limits dir) i).isSome) ∧
        (pool.Finished → pool.returned = reports) := by
  have hnames := nodup_names_discover host tools limits dir filter hdistinct
  refine ⟨((discover names filter).map (runCase host tools limits dir)).mergeSort reportLE,
    by rw [check, hlist], isWanted_iff filter, ?_, pairwise_lt_mergeSort hnames, ?_⟩
  · exact (List.mergeSort_perm _ _).trans ((List.mergeSort_perm _ _).map _)
  · intro listing hlisting jobs schedule pool hplay
    rw [discover_perm hlisting filter] at hplay ⊢
    refine ⟨?_, Pool.exists_move?, fun hfin => ?_⟩
    · have hwork := Pool.work_play? hplay
      rw [Pool.work_start] at hwork
      omega
    · exact mergeSort_eq_of_perm (Pool.reports_perm_of_finished hplay hfin) hnames

/-- Two cases whose images are ordered the other way round, in a directory where no tool can be run. -/
def crossedCases : Host where
  read _ := .error "no file"
  list _ := .ok ["a.rb", "notes.txt", "a.q.rb"]
  launch _ := .error "no tool"

/-- The second of two workers overtakes the first, which has taken its case earlier. -/
theorem check_any_schedule_overtaking :
    crossedCases.list "cases" = .ok ["a.rb", "notes.txt", "a.q.rb"] ∧
      ∃ pool, (Pool.start (discover ["a.q.rb", "a.rb", "notes.txt"] none) 2).play?
          (runCase crossedCases {} {} "cases") [0, 1, 1, 1, 1, 0, 0, 0] = some pool ∧
        pool.Finished ∧ check crossedCases {} {} "cases" none = .ok pool.returned := by
  have hlist : crossedCases.list "cases" = .ok ["a.rb", "notes.txt", "a.q.rb"] := rfl
  have hcases : discover ["a.q.rb", "a.rb", "notes.txt"] none = ["a.q.rb", "a.rb"] := by
    have hfilter : ["a.q.rb", "a.rb", "notes.txt"].filter (isWanted none) = ["a.q.rb", "a.rb"] := by
      decide
    rw [discover, hfilter]
    exact List.mergeSort_of_pairwise (by decide)
  obtain ⟨reports, hcheck, -, -, -, hall⟩ :=
    check_any_schedule crossedCases {} {} "cases" none hlist (by decide)
  obtain ⟨-, -, hreturned⟩ := hall ["a.q.rb", "a.rb", "notes.txt"] (by decide) 2
    [0, 1, 1, 1, 1, 0, 0, 0] _ (by rw [hcases]; rfl)
  refine ⟨hlist, _, by rw [hcases]; rfl, ?_, ?_⟩
  · decide
  · rw [hcheck, hreturned (by decide)]

end Rite.Conformance
