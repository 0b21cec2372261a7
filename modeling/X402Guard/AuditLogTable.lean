/-
The table that shows the audit log a page at a time.  Next asks for the rows
after the last one shown and keeps the id of the first one on a stack; Previous
asks for the rows after the id on top of that stack.
-/
import X402Guard.AuditPages
import Mathlib.Data.List.Induction

namespace X402Guard.Dashboard

open KeysetPages

/-- `AuditLogTable` between two clicks, when nothing is loading. -/
structure AuditLogTable where
  filters : AuditLogFilters
  data : AuditPage
  cursorStack : List Uuid

inductive Click
  | next
  | previous
deriving DecidableEq, Repr

namespace AuditLogTable

/-- The table as it is first shown. -/
def mount (initialData : AuditPage) : AuditLogTable where
  filters := ⟨none, none, none, none, none, some 25⟩
  data := initialData
  cursorStack := []

/-- When the query fails the rows stay as they are. -/
def refetch (log : AuditLog) (error : Option String)
    (newFilters : AuditLogFilters) (table : AuditLogTable) : AuditLogTable :=
  match fetchAuditLog log error newFilters with
  | .ok result => { table with data := result }
  | .error _ => table

def handleFilterChange (log : AuditLog) (error : Option String)
    (newFilters : AuditLogFilters) (table : AuditLogTable) : AuditLogTable :=
  refetch log error newFilters
    { table with filters := newFilters, cursorStack := [] }

def handleNext (log : AuditLog) (error : Option String)
    (table : AuditLogTable) : AuditLogTable :=
  match table.data.rows.getLast? with
  | none => table
  | some lastRow =>
      let cursorStack := match table.data.rows.head? with
        | some firstRow => table.cursorStack ++ [firstRow.id]
        | none => table.cursorStack
      refetch log error (table.filters.withCursor (some lastRow.id))
        { table with cursorStack := cursorStack }

/-- The cursor is `undefined` when the stack is empty. -/
def handlePrevious (log : AuditLog) (error : Option String)
    (table : AuditLogTable) : AuditLogTable :=
  refetch log error (table.filters.withCursor table.cursorStack.getLast?)
    { table with cursorStack := table.cursorStack.dropLast }

/-- Whether the button is enabled. -/
def Enabled (table : AuditLogTable) : Click → Prop
  | .next => table.data.hasNextPage = true
  | .previous => table.cursorStack.length ≠ 0

instance (table : AuditLogTable) :
    (click : Click) → Decidable (table.Enabled click)
  | .next => inferInstanceAs (Decidable (_ = _))
  | .previous => inferInstanceAs (Decidable (_ ≠ _))

/-- What a button does once its query is answered. -/
def handle (log : AuditLog) (table : AuditLogTable) : Click → AuditLogTable
  | .next => table.handleNext log none
  | .previous => table.handlePrevious log none

/-- A button that is disabled cannot be clicked. -/
def click (log : AuditLog) (table : AuditLogTable) (click : Click) :
    Option AuditLogTable :=
  if table.Enabled click then some (table.handle log click) else none

/-- Click after click; `none` when one of the buttons is disabled. -/
def clickAll (log : AuditLog) (table : AuditLogTable) (clicks : List Click) :
    Option AuditLogTable :=
  clicks.foldlM (AuditLogTable.click log) table

theorem click_eq_some_iff {log : AuditLog} {table table' : AuditLogTable}
    {click : Click} :
    table.click log click = some table' ↔
      table.Enabled click ∧ table.handle log click = table' := by
  rw [AuditLogTable.click, Option.ite_none_right_eq_some, Option.some.injEq]

theorem clickAll_concat {log : AuditLog} {table table' : AuditLogTable}
    {clicks : List Click} {click : Click} :
    clickAll log table (clicks ++ [click]) = some table' ↔
      ∃ middle, clickAll log table clicks = some middle ∧
        middle.click log click = some table' := by
  rw [clickAll, List.foldlM_append]
  simp [clickAll, Option.bind_eq_some_iff]

/-- What holds of a table and is kept by every click that its buttons permit
holds after a run of clicks. -/
theorem clickAll_invariant {log : AuditLog} {start table : AuditLogTable}
    {clicks : List Click} (invariant : List Click → AuditLogTable → Prop)
    (hstart : invariant [] start)
    (hstep : ∀ clicks middle click, invariant clicks middle →
      middle.Enabled click →
        invariant (clicks ++ [click]) (middle.handle log click))
    (hrun : clickAll log start clicks = some table) :
    invariant clicks table := by
  induction clicks using List.reverseRecOn generalizing table with
  | nil =>
      rw [← Option.some.inj hrun]
      exact hstart
  | append_singleton clicks click ih =>
      obtain ⟨middle, hmiddle, hclick⟩ := clickAll_concat.mp hrun
      obtain ⟨henabled, rfl⟩ := click_eq_some_iff.mp hclick
      exact hstep clicks middle click (ih hmiddle) henabled

end AuditLogTable

/-- The clicks on Next, less those on Previous. -/
def netNexts (clicks : List Click) : Nat :=
  clicks.count .next - clicks.count .previous

/-- The page is mounted with what a filter change to its first filters would
show. -/
theorem AuditLogTable.mount_eq {log : AuditLog} {initialData : AuditPage}
    (h : fetchAuditLog log none ⟨none, none, none, none, none, some 25⟩ =
      .ok initialData) (before : AuditLogTable) :
    mount initialData = handleFilterChange log none
      ⟨none, none, none, none, none, some 25⟩ before := by
  rw [handleFilterChange, refetch, h]
  rfl

/-- The table shows the rows that its filters select, from `offset` on.  What
lies at height `i` of the stack is the id of a row in page `i` or after it, and
not on the last page. -/
structure ShowsFrom (log : AuditLog) (filters : AuditLogFilters) (offset : Nat)
    (table : AuditLogTable) : Prop where
  filters_eq : table.filters = filters
  data_eq : table.data = firstPage (filters.pageSize.getD 25)
    ((selectRows log filters).drop offset)
  stacked : ∀ i id, table.cursorStack[i]? = some id →
    ∃ (place : Nat) (h : place < (selectRows log filters).length),
      id = (selectRows log filters)[place].id ∧
      i * filters.pageSize.getD 25 ≤ place ∧
      place + filters.pageSize.getD 25 < (selectRows log filters).length

namespace ShowsFrom

variable {log : AuditLog} {filters : AuditLogFilters} {offset : Nat}
variable {table : AuditLogTable}

theorem handleFilterChange (log : AuditLog) (filters : AuditLogFilters)
    (before : AuditLogTable) :
    ShowsFrom log filters 0 (before.handleFilterChange log none filters) := by
  rw [AuditLogTable.handleFilterChange, AuditLogTable.refetch,
    fetchAuditLog_eq]
  exact ⟨rfl, rfl, by simp⟩

/-- Next is enabled while rows are left after the page. -/
theorem enabled_next_iff (h : ShowsFrom log filters offset table) :
    table.Enabled .next ↔ offset + filters.pageSize.getD 25 <
      (selectRows log filters).length := by
  rw [AuditLogTable.Enabled, h.data_eq, firstPage, decide_eq_true_iff,
    List.length_drop]
  omega

/-- Next shows the page after this one and stacks the first row of this one. -/
theorem handleNext (h : ShowsFrom log filters offset table)
    (hsize : 0 < filters.pageSize.getD 25)
    (hmore : offset + filters.pageSize.getD 25 <
      (selectRows log filters).length)
    (hheight : table.cursorStack.length * filters.pageSize.getD 25 ≤ offset) :
    ShowsFrom log filters (offset + filters.pageSize.getD 25)
        (table.handleNext log none) ∧
      (table.handleNext log none).cursorStack.length =
        table.cursorStack.length + 1 := by
  obtain ⟨lastRow, hlast, hnext⟩ :=
    selectRows_after_page log filters hsize hmore.le
  have hoffset : offset < (selectRows log filters).length := by omega
  have hfirst : table.data.rows.head? =
      some (selectRows log filters)[offset] := by
    rw [h.data_eq, firstPage, List.head?_eq_getElem?,
      List.getElem?_take_of_lt hsize, List.getElem?_drop, Nat.add_zero,
      List.getElem?_eq_getElem hoffset]
  have hlast' : table.data.rows.getLast? = some lastRow := by
    rw [h.data_eq]
    exact hlast
  rw [AuditLogTable.handleNext, hlast', hfirst, h.filters_eq]
  simp only [AuditLogTable.refetch, fetchAuditLog_eq, hnext,
    AuditLogFilters.pageSize_withCursor]
  refine ⟨⟨rfl, rfl, ?_⟩, List.length_append⟩
  intro i id hid
  rw [List.getElem?_append] at hid
  split at hid
  · exact h.stacked i id hid
  · rw [List.getElem?_singleton] at hid
    split at hid
    · rename_i hbelow htop
      have hi : i = table.cursorStack.length := by omega
      refine ⟨offset, hoffset, (Option.some.inj hid).symm, ?_, hmore⟩
      rw [hi]
      exact hheight
    · cases hid

/-- Previous shows the rows after the one on top of the stack. -/
theorem handlePrevious (h : ShowsFrom log filters offset table)
    (henabled : table.Enabled .previous) :
    ∃ place, ShowsFrom log filters (place + 1)
        (table.handlePrevious log none) ∧
      (table.cursorStack.length - 1) * filters.pageSize.getD 25 ≤ place ∧
      place + filters.pageSize.getD 25 < (selectRows log filters).length := by
  have hpos : 0 < table.cursorStack.length := Nat.pos_of_ne_zero henabled
  have htop : table.cursorStack.getLast? =
      some (table.cursorStack[table.cursorStack.length - 1]) := by
    rw [List.getLast?_eq_getElem?, List.getElem?_eq_getElem]
  obtain ⟨place, hplace, hid, hheight, hmore⟩ :=
    h.stacked (table.cursorStack.length - 1) _ (List.getElem?_eq_getElem _)
  refine ⟨place, ?_, hheight, hmore⟩
  rw [AuditLogTable.handlePrevious, htop, hid, h.filters_eq]
  simp only [AuditLogTable.refetch, fetchAuditLog_eq,
    selectRows_withCursor hplace, AuditLogFilters.pageSize_withCursor]
  refine ⟨rfl, rfl, ?_⟩
  intro i id hid'
  rw [List.getElem?_dropLast] at hid'
  split at hid'
  · exact h.stacked i id hid'
  · cases hid'

end ShowsFrom

/-- Where a run of clicks has come to.  Before the first Previous the table
shows the page whose number is the height of the stack, after it the page
starts at a later row. -/
structure Reached (log : AuditLog) (filters : AuditLogFilters)
    (clicks : List Click) (offset : Nat) (table : AuditLogTable) : Prop where
  shows : ShowsFrom log filters offset table
  height : clicks.count .previous + table.cursorStack.length =
    clicks.count .next
  straight : .previous ∉ clicks →
    offset = table.cursorStack.length * filters.pageSize.getD 25
  astray : .previous ∈ clicks →
    table.cursorStack.length * filters.pageSize.getD 25 < offset ∧
      offset < (selectRows log filters).length

variable {log : AuditLog} {filters : AuditLogFilters} {before : AuditLogTable}

theorem Reached.netNexts_eq {clicks : List Click} {offset : Nat}
    {table : AuditLogTable} (h : Reached log filters clicks offset table) :
    netNexts clicks = table.cursorStack.length := by
  have hheight := h.height
  rw [netNexts]
  omega

theorem Reached.next {clicks : List Click} {offset : Nat}
    {table : AuditLogTable} (h : Reached log filters clicks offset table)
    (hsize : 0 < filters.pageSize.getD 25) (henabled : table.Enabled .next) :
    Reached log filters (clicks ++ [.next])
      (offset + filters.pageSize.getD 25) (table.handleNext log none) := by
  have hmore := h.shows.enabled_next_iff.mp henabled
  have hheight :
      table.cursorStack.length * filters.pageSize.getD 25 ≤ offset := by
    by_cases hprevious : .previous ∈ clicks
    · exact (h.astray hprevious).1.le
    · exact (h.straight hprevious).ge
  obtain ⟨hshows, hlength⟩ := h.shows.handleNext hsize hmore hheight
  refine ⟨hshows, ?_, ?_, ?_⟩
  · have := h.height
    simp only [List.count_append, List.count_cons_self, List.count_nil,
      List.count_cons_of_ne (show Click.next ≠ .previous by decide)]
    omega
  · intro hprevious
    have hoffset := h.straight fun hmem =>
      hprevious (List.mem_append_left _ hmem)
    rw [hlength, Nat.succ_mul, hoffset]
  · intro hprevious
    have hmem : .previous ∈ clicks := by simpa using hprevious
    rw [hlength, Nat.succ_mul]
    exact ⟨Nat.add_lt_add_right (h.astray hmem).1 _, hmore⟩

theorem Reached.previous {clicks : List Click} {offset : Nat}
    {table : AuditLogTable} (h : Reached log filters clicks offset table)
    (hsize : 0 < filters.pageSize.getD 25)
    (henabled : table.Enabled .previous) :
    ∃ place, Reached log filters (clicks ++ [.previous]) (place + 1)
      (table.handlePrevious log none) := by
  obtain ⟨place, hshows, hheight, hmore⟩ := h.shows.handlePrevious henabled
  have hlength : (table.handlePrevious log none).cursorStack.length =
      table.cursorStack.length - 1 := by
    rw [AuditLogTable.handlePrevious, AuditLogTable.refetch, fetchAuditLog_eq]
    exact List.length_dropLast
  have hpos : table.cursorStack.length ≠ 0 := henabled
  refine ⟨place, hshows, ?_, ?_, ?_⟩
  · have := h.height
    simp only [List.count_append, List.count_cons_self, List.count_nil,
      List.count_cons_of_ne (show Click.previous ≠ .next by decide)]
    omega
  · intro hprevious
    simp at hprevious
  · intro _
    rw [hlength]
    omega

/-- Every run of clicks has come somewhere. -/
theorem clickAll_reached {clicks : List Click} {table : AuditLogTable}
    (hsize : 0 < filters.pageSize.getD 25)
    (hrun : AuditLogTable.clickAll log
      (before.handleFilterChange log none filters) clicks = some table) :
    ∃ offset, Reached log filters clicks offset table := by
  refine AuditLogTable.clickAll_invariant
    (fun clicks table => ∃ offset, Reached log filters clicks offset table)
    ?_ ?_ hrun
  · refine ⟨0, .handleFilterChange log filters before, ?_, ?_, ?_⟩
    all_goals
      simp [AuditLogTable.handleFilterChange, AuditLogTable.refetch,
        fetchAuditLog_eq]
  · rintro clicks middle click ⟨offset, hreached⟩ henabled
    cases click with
    | next => exact ⟨_, hreached.next hsize henabled⟩
    | previous =>
        obtain ⟨place, hreached'⟩ := hreached.previous hsize henabled
        exact ⟨_, hreached'⟩

theorem previous_not_mem_replicate (n : Nat) :
    .previous ∉ List.replicate n Click.next := by
  simp [List.mem_replicate]

theorem netNexts_replicate (n : Nat) :
    netNexts (List.replicate n .next) = n := by
  rw [netNexts, List.count_replicate_self,
    List.count_eq_zero_of_not_mem (previous_not_mem_replicate n),
    Nat.sub_zero]

/-- Nexts alone have come to the page of their number. -/
theorem Reached.offset_eq {n offset : Nat} {table : AuditLogTable}
    (h : Reached log filters (List.replicate n .next) offset table) :
    offset = n * filters.pageSize.getD 25 := by
  rw [h.straight (previous_not_mem_replicate n), ← h.netNexts_eq,
    netNexts_replicate]

/-- A page of size zero has no row to stack. -/
theorem previous_not_mem_of_size_eq_zero {clicks : List Click}
    {table : AuditLogTable} (hsize : filters.pageSize.getD 25 = 0)
    (hrun : AuditLogTable.clickAll log
      (before.handleFilterChange log none filters) clicks = some table) :
    .previous ∉ clicks ∧ table.data = firstPage 0 (selectRows log filters) ∧
      table.cursorStack = [] := by
  refine AuditLogTable.clickAll_invariant (fun clicks table =>
    .previous ∉ clicks ∧ table.data = firstPage 0 (selectRows log filters) ∧
      table.cursorStack = []) ?_ ?_ hrun
  · simp [AuditLogTable.handleFilterChange, AuditLogTable.refetch,
      fetchAuditLog_eq, hsize]
  · rintro clicks middle click ⟨hprevious, hdata, hstack⟩ henabled
    cases click with
    | next =>
        have hstay : middle.handle log .next = middle := by
          rw [AuditLogTable.handle, AuditLogTable.handleNext, hdata,
            firstPage, List.take_zero]
          rfl
        rw [hstay]
        exact ⟨by simpa using hprevious, hdata, hstack⟩
    | previous => exact absurd (congrArg List.length hstack) henabled

/-- Without a Previous only Nexts were clicked. -/
theorem eq_replicate_netNexts {clicks : List Click}
    (h : .previous ∉ clicks) :
    clicks = List.replicate (netNexts clicks) .next := by
  have hall : ∀ click ∈ clicks, click = .next := by
    intro click hmem
    cases click with
    | next => rfl
    | previous => exact absurd hmem h
  have hreplicate := List.eq_replicate_of_mem hall
  have hnet : netNexts clicks = clicks.length := by
    rw [netNexts, List.count_eq_zero_of_not_mem h, Nat.sub_zero]
    exact List.count_eq_length.mpr fun click hmem => (hall click hmem).symm
  rw [hnet]
  exact hreplicate

/-- Nexts alone reach every page. -/
theorem exists_straight (before : AuditLogTable)
    (hsize : 0 < filters.pageSize.getD 25) (n : Nat)
    (h : n * filters.pageSize.getD 25 < (selectRows log filters).length) :
    ∃ straight, AuditLogTable.clickAll log
      (before.handleFilterChange log none filters)
      (List.replicate n .next) = some straight := by
  induction n with
  | zero => exact ⟨_, rfl⟩
  | succ n ih =>
      rw [Nat.succ_mul] at h
      obtain ⟨middle, hmiddle⟩ := ih (by omega)
      obtain ⟨offset, hreached⟩ := clickAll_reached hsize hmiddle
      have henabled : middle.Enabled .next :=
        hreached.shows.enabled_next_iff.mpr (hreached.offset_eq ▸ h)
      rw [List.replicate_succ']
      exact ⟨_, AuditLogTable.clickAll_concat.mpr ⟨middle, hmiddle,
        AuditLogTable.click_eq_some_iff.mpr ⟨henabled, rfl⟩⟩⟩

/-- Nexts alone show the page of their number. -/
theorem data_of_straight {n : Nat} {straight : AuditLogTable}
    (hrun : AuditLogTable.clickAll log
      (before.handleFilterChange log none filters)
      (List.replicate n .next) = some straight) :
    straight.data = firstPage (filters.pageSize.getD 25)
      ((selectRows log filters).drop (n * filters.pageSize.getD 25)) := by
  rcases Nat.eq_zero_or_pos (filters.pageSize.getD 25) with hsize | hsize
  · rw [hsize, Nat.mul_zero, List.drop_zero]
    exact (previous_not_mem_of_size_eq_zero hsize hrun).2.1
  · obtain ⟨offset, hreached⟩ := clickAll_reached hsize hrun
    rw [hreached.shows.data_eq, hreached.offset_eq]

/-- After a Previous the first row shown is not that of the page that the
Nexts less the Previouses lead to. -/
theorem rows_ne_of_previous {clicks : List Click} {table : AuditLogTable}
    {offset : Nat} (hreached : Reached log filters clicks offset table)
    (hsize : 0 < filters.pageSize.getD 25) (hprevious : .previous ∈ clicks) :
    table.data.rows ≠ (firstPage (filters.pageSize.getD 25)
      ((selectRows log filters).drop
        (netNexts clicks * filters.pageSize.getD 25))).rows := by
  intro hrows
  obtain ⟨hbeyond, hoffset⟩ := hreached.astray hprevious
  rw [← hreached.netNexts_eq] at hbeyond
  have hstart := hbeyond.trans hoffset
  have hhead := congrArg List.head? hrows
  rw [hreached.shows.data_eq] at hhead
  simp only [firstPage, List.head?_eq_getElem?] at hhead
  rw [List.getElem?_take_of_lt hsize, List.getElem?_take_of_lt hsize,
    List.getElem?_drop, List.getElem?_drop, Nat.add_zero, Nat.add_zero,
    List.getElem?_eq_getElem hoffset, List.getElem?_eq_getElem hstart] at hhead
  have heq := ((descends_selectRows log filters).getElem_inj
    hoffset hstart).mp (Option.some.inj hhead)
  exact hbeyond.ne' heq

/-- The Nexts of a permitted run less its Previouses lead to a page, and the
run shows the rows of that page exactly when Previous was not clicked in it:
Previous never takes the table back to the page that Next left. -/
theorem clicks_show_netNexts_iff {clicks : List Click} {table : AuditLogTable}
    (hrun : AuditLogTable.clickAll log
      (before.handleFilterChange log none filters) clicks = some table) :
    ∃ straight, AuditLogTable.clickAll log
        (before.handleFilterChange log none filters)
        (List.replicate (netNexts clicks) .next) = some straight ∧
      (table.data.rows = straight.data.rows ↔ .previous ∉ clicks) := by
  by_cases hprevious : .previous ∈ clicks
  · rcases Nat.eq_zero_or_pos (filters.pageSize.getD 25) with hsize | hsize
    · exact absurd hprevious (previous_not_mem_of_size_eq_zero hsize hrun).1
    obtain ⟨offset, hreached⟩ := clickAll_reached hsize hrun
    obtain ⟨hbeyond, hoffset⟩ := hreached.astray hprevious
    rw [← hreached.netNexts_eq] at hbeyond
    obtain ⟨straight, hstraight⟩ :=
      exists_straight before hsize _ (hbeyond.trans hoffset)
    refine ⟨straight, hstraight, ?_⟩
    have hne := rows_ne_of_previous hreached hsize hprevious
    rw [← data_of_straight hstraight] at hne
    exact iff_of_false hne (not_not_intro hprevious)
  · have hstraight := hrun
    rw [eq_replicate_netNexts hprevious] at hstraight
    exact ⟨table, hstraight, iff_of_true rfl hprevious⟩

namespace Sample

/-- One event a second, one more than a page shows. -/
def fullPage : AuditLog where
  rows := (List.range 26).map fun i =>
    auditRow (BitVec.ofNat 128 i) (i * microsPerSecond)
  nodup := by decide

/-- The table as the dashboard opens it. -/
def opened : AuditLogTable :=
  AuditLogTable.handleFilterChange fullPage none (pagesOf 25)
    (.mount ⟨[], false⟩)

def ids (table : AuditLogTable) : List Uuid :=
  table.data.rows.map AuditRow.id

end Sample

/-- Next and then Previous: the latest event, 25, is no longer shown. -/
theorem previous_skips_row :
    (AuditLogTable.clickAll Sample.fullPage Sample.opened
        [.next, .previous]).map Sample.ids =
      some ((List.range 25).map (BitVec.ofNat 128)).reverse ∧
    (AuditLogTable.clickAll Sample.fullPage Sample.opened
        (List.replicate (netNexts [.next, .previous]) .next)).map Sample.ids =
      some ((List.range 25).map fun i => BitVec.ofNat 128 (i + 1)).reverse ∧
    (AuditLogTable.clickAll Sample.fullPage Sample.opened
        [.next, .previous]).map Sample.ids ≠
      (AuditLogTable.clickAll Sample.fullPage Sample.opened
        (List.replicate (netNexts [.next, .previous]) .next)).map
          Sample.ids := by
  decide

/-- Next twice shows the third page. -/
theorem clicks_show_netNexts_two_nexts :
    ∃ table straight : AuditLogTable,
      AuditLogTable.clickAll Sample.auditLog
        (AuditLogTable.handleFilterChange Sample.auditLog none
          (Sample.pagesOf 1) (.mount ⟨[], false⟩)) [.next, .next] =
        some table ∧
      AuditLogTable.clickAll Sample.auditLog
        (AuditLogTable.handleFilterChange Sample.auditLog none
          (Sample.pagesOf 1) (.mount ⟨[], false⟩))
        (List.replicate (netNexts [.next, .next]) .next) = some straight ∧
      (table.data.rows = straight.data.rows ↔
        .previous ∉ [Click.next, Click.next]) := by
  obtain ⟨table, hrun⟩ := Option.isSome_iff_exists.mp
    (show (AuditLogTable.clickAll Sample.auditLog
      (AuditLogTable.handleFilterChange Sample.auditLog none
        (Sample.pagesOf 1) (.mount ⟨[], false⟩))
      [.next, .next]).isSome = true by decide)
  obtain ⟨straight, hstraight, hiff⟩ := clicks_show_netNexts_iff hrun
  exact ⟨table, straight, hrun, hstraight, hiff⟩

end X402Guard.Dashboard
