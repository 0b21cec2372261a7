/-
The audit log as the dashboard shows it: `fetchAuditLog`, which reads one page
of the rows that the filters leave, and the walk over all pages that follows
the id of the last row.
-/
import X402Guard.KeyedTable
import X402Guard.KeysetPages
import X402Guard.ServerTypes

namespace X402Guard.Dashboard

open KeysetPages

/-- A row of `audit_log`, with the columns that the dashboard selects. -/
structure AuditRow where
  id : Uuid
  agentId : Option Uuid
  sessionKeyId : Option Uuid
  eventType : AuditEventType
  metadata : Value
  createdAt : Micros

/-- `audit_log` under its primary key. -/
abbrev AuditLog := KeyedTable AuditRow AuditRow.id

/-- Ids and dates stand for the texts that name them; a blank text is like one
that is not given. -/
structure AuditLogFilters where
  agentId : Option Uuid
  eventTypes : Option (List AuditEventType)
  fromDate : Option Micros
  toDate : Option Micros
  cursorId : Option Uuid
  pageSize : Option Nat

structure AuditPage where
  rows : List AuditRow
  hasNextPage : Bool

/-- A restriction that is added to the query when its filter is given. -/
def IfGiven {α : Type} (filter : Option α) (restriction : α → Prop) : Prop :=
  ∀ value ∈ filter, restriction value

instance {α : Type} (filter : Option α) (restriction : α → Prop)
    [DecidablePred restriction] : Decidable (IfGiven filter restriction) :=
  Option.decidableForallMem filter

@[simp] theorem ifGiven_none {α : Type} (restriction : α → Prop) :
    IfGiven none restriction := by
  simp [IfGiven]

@[simp] theorem ifGiven_some {α : Type} (value : α)
    (restriction : α → Prop) :
    IfGiven (some value) restriction ↔ restriction value := by
  simp [IfGiven]

namespace AuditLogFilters

/-- The filters that are given, the cursor apart. -/
def Matches (filters : AuditLogFilters) (row : AuditRow) : Prop :=
  (IfGiven filters.agentId fun agentId => row.agentId = some agentId) ∧
  (IfGiven filters.eventTypes fun eventTypes =>
    0 < eventTypes.length → row.eventType ∈ eventTypes) ∧
  (IfGiven filters.fromDate fun fromDate => fromDate ≤ row.createdAt) ∧
  (IfGiven filters.toDate fun toDate => row.createdAt ≤ toDate)

instance (filters : AuditLogFilters) (row : AuditRow) :
    Decidable (filters.Matches row) :=
  inferInstanceAs (Decidable (_ ∧ _ ∧ _ ∧ _))

/-- The cursor keeps what is older than its row, and of the rows as old as it
those with a smaller id.  A cursor without a row keeps everything. -/
def AfterCursor (log : AuditLog) (filters : AuditLogFilters)
    (row : AuditRow) : Prop :=
  IfGiven filters.cursorId fun cursorId =>
    IfGiven (log.find? cursorId) fun cursorRow =>
      row.createdAt < cursorRow.createdAt ∨
        (row.createdAt = cursorRow.createdAt ∧ row.id < cursorId)

instance (log : AuditLog) (filters : AuditLogFilters) (row : AuditRow) :
    Decidable (filters.AfterCursor log row) :=
  inferInstanceAs (Decidable (IfGiven _ _))

/-- `{ ...filters, cursorId }`. -/
def withCursor (filters : AuditLogFilters) (cursorId : Option Uuid) :
    AuditLogFilters :=
  { filters with cursorId := cursorId }

@[simp] theorem cursorId_withCursor (filters : AuditLogFilters)
    (cursorId : Option Uuid) :
    (filters.withCursor cursorId).cursorId = cursorId := rfl

@[simp] theorem pageSize_withCursor (filters : AuditLogFilters)
    (cursorId : Option Uuid) :
    (filters.withCursor cursorId).pageSize = filters.pageSize := rfl

@[simp] theorem matches_withCursor (filters : AuditLogFilters)
    (cursorId : Option Uuid) (row : AuditRow) :
    (filters.withCursor cursorId).Matches row ↔ filters.Matches row := Iff.rfl

end AuditLogFilters

/-- The order of the pages: by `created_at` and then by `id`. -/
def AuditRow.position (row : AuditRow) : Micros ×ₗ Nat :=
  toLex (row.createdAt, row.id.toNat)

/-- What the query selects, in its order and before its limit. -/
def selectRows (log : AuditLog) (filters : AuditLogFilters) :
    List AuditRow :=
  descending AuditRow.position <|
    log.selectWhere fun row => filters.Matches row ∧ filters.AfterCursor log row

/-- One page, or the error that Supabase answers the query with. -/
def fetchAuditLog (log : AuditLog) (error : Option String)
    (filters : AuditLogFilters) : Except String AuditPage :=
  let pageSize := filters.pageSize.getD 25
  let rows := (selectRows log filters).take (pageSize + 1)
  match error with
  | some message => .error s!"Audit log query failed: {message}"
  | none =>
      let hasNextPage := decide (pageSize < rows.length)
      .ok ⟨if hasNextPage then rows.dropLast else rows, hasNextPage⟩

/-- Page after page, each with the id of the last row as the next cursor, while
there is a next page.  `none` when the fuel does not reach the last page. -/
def fetchPages (log : AuditLog) :
    Nat → AuditLogFilters → Option (List AuditPage)
  | 0, _ => none
  | fuel + 1, filters =>
      match fetchAuditLog log none filters with
      | .error _ => none
      | .ok page =>
          if page.hasNextPage then
            match page.rows.getLast? with
            | none => none
            | some lastRow =>
                (fetchPages log fuel
                  (filters.withCursor (some lastRow.id))).map (page :: ·)
          else some [page]

/-- `size` of the rows, and whether there are more. -/
def firstPage (size : Nat) (rows : List AuditRow) : AuditPage :=
  ⟨rows.take size, decide (size < rows.length)⟩

theorem dropLast_take_succ {rows : List AuditRow} {size : Nat}
    (h : size < rows.length) :
    (rows.take (size + 1)).dropLast = rows.take size := by
  have hlength : (rows.take (size + 1)).length = size + 1 :=
    List.length_take_of_le h
  rw [List.dropLast_eq_take, hlength, List.take_take, Nat.add_sub_cancel,
    Nat.min_eq_left (Nat.le_add_right size 1)]

/-- The row read beyond the page is only looked at. -/
theorem fetchAuditLog_eq (log : AuditLog) (filters : AuditLogFilters) :
    fetchAuditLog log none filters =
      .ok (firstPage (filters.pageSize.getD 25) (selectRows log filters)) := by
  have hmore : filters.pageSize.getD 25 <
      ((selectRows log filters).take (filters.pageSize.getD 25 + 1)).length ↔
        filters.pageSize.getD 25 < (selectRows log filters).length := by
    rw [List.length_take]
    omega
  simp only [fetchAuditLog, firstPage, hmore]
  by_cases hlt : filters.pageSize.getD 25 < (selectRows log filters).length
  · simp only [hlt, decide_true, if_true, dropLast_take_succ hlt]
  · have hle := Nat.le_of_not_lt hlt
    rw [List.take_of_length_le (Nat.le_succ_of_le hle),
      List.take_of_length_le hle]
    simp only [hlt, decide_false, Bool.false_eq_true, if_false]

theorem position_lt {row other : AuditRow} :
    row.position < other.position ↔
      row.createdAt < other.createdAt ∨
        (row.createdAt = other.createdAt ∧ row.id < other.id) := by
  rw [AuditRow.position, AuditRow.position, Prod.Lex.toLex_lt_toLex]
  rfl

theorem afterCursor_iff {log : AuditLog} {filters : AuditLogFilters}
    {cursorRow : AuditRow} (hrow : cursorRow ∈ log.rows)
    (hcursor : filters.cursorId = some cursorRow.id) (row : AuditRow) :
    filters.AfterCursor log row ↔ row.position < cursorRow.position := by
  have hfind : log.find? cursorRow.id = some cursorRow :=
    KeyedTable.find?_eq_some_iff.mpr ⟨hrow, rfl⟩
  rw [AuditLogFilters.AfterCursor, hcursor, ifGiven_some, hfind, ifGiven_some,
    position_lt]

/-- No two rows of the log share their position. -/
theorem nodup_position (log : AuditLog) :
    (log.rows.map AuditRow.position).Nodup := by
  have hcomp : log.rows.map AuditRow.id =
      (log.rows.map AuditRow.position).map
        fun position => BitVec.ofNat 128 (ofLex position).2 := by
    rw [List.map_map]
    apply List.map_congr_left
    intro row _
    simp [AuditRow.position]
  exact List.Nodup.of_map _ (hcomp ▸ log.nodup)

theorem mem_selectRows {log : AuditLog} {filters : AuditLogFilters}
    {row : AuditRow} :
    row ∈ selectRows log filters ↔
      row ∈ log.rows ∧ filters.Matches row ∧ filters.AfterCursor log row := by
  rw [selectRows, (descending_perm _ _).mem_iff, KeyedTable.mem_selectWhere]

theorem nodup_selectWhere (log : AuditLog) (p : AuditRow → Prop)
    [DecidablePred p] :
    ((log.selectWhere p).map AuditRow.position).Nodup :=
  (nodup_position log).sublist (List.filter_sublist.map AuditRow.position)

theorem descends_selectRows (log : AuditLog) (filters : AuditLogFilters) :
    Descends AuditRow.position (selectRows log filters) :=
  descends_descending (nodup_selectWhere log _)

/-- What comes after a row that the cursor keeps is kept. -/
theorem AuditLogFilters.AfterCursor.of_lt {log : AuditLog}
    {filters : AuditLogFilters} {row later : AuditRow}
    (h : filters.AfterCursor log later) (hlt : row.position < later.position) :
    filters.AfterCursor log row := by
  cases hcursor : filters.cursorId with
  | none => simp [AuditLogFilters.AfterCursor, hcursor]
  | some cursorId =>
      cases hfind : log.find? cursorId with
      | none => simp [AuditLogFilters.AfterCursor, hcursor, hfind]
      | some cursorRow =>
          obtain ⟨hmem, rfl⟩ := KeyedTable.find?_eq_some_iff.mp hfind
          rw [afterCursor_iff hmem hcursor] at h ⊢
          exact hlt.trans h

/-- With one of the selected rows as its cursor the query selects the rows
after that one. -/
theorem selectRows_withCursor {log : AuditLog} {filters : AuditLogFilters}
    {i : Nat} (hi : i < (selectRows log filters).length) :
    selectRows log
        (filters.withCursor (some (selectRows log filters)[i].id)) =
      (selectRows log filters).drop (i + 1) := by
  obtain ⟨hmem, _, hafter⟩ := mem_selectRows.mp (List.getElem_mem hi)
  have hiff (row : AuditRow) :
      (filters.withCursor (some (selectRows log filters)[i].id)).Matches row ∧
          (filters.withCursor
            (some (selectRows log filters)[i].id)).AfterCursor log row ↔
        row.position < (selectRows log filters)[i].position ∧
          filters.Matches row ∧ filters.AfterCursor log row := by
    rw [afterCursor_iff hmem (AuditLogFilters.cursorId_withCursor _ _),
      AuditLogFilters.matches_withCursor]
    constructor
    · rintro ⟨hmatches, hlt⟩
      exact ⟨hlt, hmatches, hafter.of_lt hlt⟩
    · rintro ⟨hlt, hmatches, _⟩
      exact ⟨hmatches, hlt⟩
  rw [← (descends_selectRows log filters).filter_lt_getElem hi]
  generalize (selectRows log filters)[i] = cursorRow at hiff ⊢
  rw [selectRows, selectRows, filter_descending (nodup_selectWhere log _)]
  simp only [KeyedTable.selectWhere, List.filter_filter, hiff, Bool.decide_and]

/-- The last row of a page leads to the rows after the page. -/
theorem selectRows_after_page (log : AuditLog) (filters : AuditLogFilters)
    {offset size : Nat} (hpos : 0 < size)
    (h : offset + size ≤ (selectRows log filters).length) :
    ∃ lastRow : AuditRow,
      (((selectRows log filters).drop offset).take size).getLast? =
        some lastRow ∧
      selectRows log (filters.withCursor (some lastRow.id)) =
        (selectRows log filters).drop (offset + size) := by
  have hindex : offset + size - 1 < (selectRows log filters).length := by
    omega
  have hlength : size ≤ ((selectRows log filters).drop offset).length := by
    rw [List.length_drop]
    omega
  refine ⟨(selectRows log filters)[offset + size - 1], ?_, ?_⟩
  · rw [List.getLast?_eq_getElem?, List.length_take_of_le hlength,
      List.getElem?_take_of_lt (Nat.sub_one_lt_of_lt hpos),
      List.getElem?_drop, ← Nat.add_sub_assoc hpos,
      List.getElem?_eq_getElem hindex]
  · rw [selectRows_withCursor hindex, Nat.sub_add_cancel (by omega)]

/-- A page that is not the last is followed by those after its last row. -/
theorem fetchPages_of_more {log : AuditLog} {filters : AuditLogFilters}
    (hmore : filters.pageSize.getD 25 < (selectRows log filters).length)
    {lastRow : AuditRow}
    (hlast : ((selectRows log filters).take
      (filters.pageSize.getD 25)).getLast? = some lastRow) (fuel : Nat) :
    fetchPages log (fuel + 1) filters =
      (fetchPages log fuel (filters.withCursor (some lastRow.id))).map
        (firstPage (filters.pageSize.getD 25) (selectRows log filters) ::
          ·) := by
  rw [fetchPages, fetchAuditLog_eq]
  simp only [firstPage, hmore, decide_true, if_true, hlast]

/-- The last page ends the walk. -/
theorem fetchPages_of_last {log : AuditLog} {filters : AuditLogFilters}
    (hlast : ¬ filters.pageSize.getD 25 < (selectRows log filters).length)
    (fuel : Nat) :
    fetchPages log (fuel + 1) filters =
      some [firstPage (filters.pageSize.getD 25)
        (selectRows log filters)] := by
  rw [fetchPages, fetchAuditLog_eq]
  simp [firstPage, hlast]

/-- From any cursor the pages end, and together they are what the query
selects. -/
theorem fetchPages_eq_some (log : AuditLog) (filters : AuditLogFilters)
    (hsize : 0 < filters.pageSize.getD 25) :
    ∃ pages : List AuditPage,
      (∀ fuel, (selectRows log filters).length < fuel →
        fetchPages log fuel filters = some pages) ∧
      pages.flatMap AuditPage.rows = selectRows log filters := by
  -- on the number of rows left, which every page but the last reduces
  induction hn : (selectRows log filters).length using Nat.strong_induction_on
    generalizing filters with
  | _ n ih =>
  by_cases hmore : filters.pageSize.getD 25 < (selectRows log filters).length
  · obtain ⟨lastRow, hlast, hnext⟩ :=
      selectRows_after_page log filters hsize
        (by rw [Nat.zero_add]; exact hmore.le)
    rw [List.drop_zero] at hlast
    rw [Nat.zero_add] at hnext
    have hlength := congrArg List.length hnext
    rw [List.length_drop] at hlength
    obtain ⟨pages, hpages, hrows⟩ := ih _ (by omega)
      (filters.withCursor (some lastRow.id)) hsize hlength
    refine ⟨firstPage (filters.pageSize.getD 25) (selectRows log filters) ::
      pages, ?_, ?_⟩
    · intro fuel hfuel
      obtain ⟨fuel, rfl⟩ := Nat.exists_eq_succ_of_ne_zero (by omega : fuel ≠ 0)
      rw [fetchPages_of_more hmore hlast, hpages fuel (by omega)]
      rfl
    · rw [List.flatMap_cons, hrows, hnext]
      exact List.take_append_drop _ _
  · refine ⟨[firstPage (filters.pageSize.getD 25) (selectRows log filters)],
      ?_, ?_⟩
    · intro fuel hfuel
      obtain ⟨fuel, rfl⟩ := Nat.exists_eq_succ_of_ne_zero (by omega : fuel ≠ 0)
      exact fetchPages_of_last hmore fuel
    · rw [List.flatMap_singleton]
      exact List.take_of_length_le (Nat.le_of_not_lt hmore)

/-- The pages from the first on end, whatever the table, the filters and the
size of a page, and hold each matching row once, the latest first. -/
theorem fetchPages_complete (log : AuditLog) (filters : AuditLogFilters)
    (hsize : 1 ≤ filters.pageSize.getD 25) :
    ∃ pages : List AuditPage,
      (∀ fuel, (log.selectWhere filters.Matches).length < fuel →
        fetchPages log fuel (filters.withCursor none) = some pages) ∧
      (pages.flatMap AuditPage.rows).Perm (log.selectWhere filters.Matches) ∧
      (pages.flatMap AuditPage.rows).Pairwise fun row next =>
        next.createdAt < row.createdAt ∨
          (next.createdAt = row.createdAt ∧ next.id < row.id) := by
  have hselect : selectRows log (filters.withCursor none) =
      descending AuditRow.position (log.selectWhere filters.Matches) := by
    rw [selectRows]
    congr 2
    funext row
    simp [AuditLogFilters.AfterCursor]
  have hperm := descending_perm AuditRow.position
    (log.selectWhere filters.Matches)
  obtain ⟨pages, hpages, hrows⟩ :=
    fetchPages_eq_some log (filters.withCursor none) hsize
  have hsorted := descends_selectRows log (filters.withCursor none)
  rw [hselect] at hpages hrows hsorted
  rw [hperm.length_eq] at hpages
  refine ⟨pages, hpages, ?_, ?_⟩
  · rw [hrows]
    exact hperm
  · rw [hrows]
    exact hsorted.imp position_lt.mp

namespace Sample

def auditRow (id : Uuid) (createdAt : Micros) : AuditRow where
  id := id
  agentId := none
  sessionKeyId := none
  eventType := .agentCreated
  metadata := .null
  createdAt := createdAt

/-- Three events, the last two at one instant. -/
def auditLog : AuditLog where
  rows := [auditRow 1 10, auditRow 3 20, auditRow 2 20]
  nodup := by decide

def pagesOf (pageSize : Nat) : AuditLogFilters where
  agentId := none
  eventTypes := none
  fromDate := none
  toDate := none
  cursorId := none
  pageSize := some pageSize

end Sample

/-- A timestamp that two pages share loses and repeats no row. -/
theorem fetchPages_shared_timestamp :
    ∃ pages : List AuditPage,
      fetchPages Sample.auditLog 4 (Sample.pagesOf 1) = some pages ∧
      (pages.flatMap AuditPage.rows).Perm
        (Sample.auditLog.selectWhere (Sample.pagesOf 1).Matches) ∧
      (pages.flatMap AuditPage.rows).Pairwise fun row next =>
        next.createdAt < row.createdAt ∨
          (next.createdAt = row.createdAt ∧ next.id < row.id) := by
  obtain ⟨pages, hpages, hperm, hsorted⟩ :=
    fetchPages_complete Sample.auditLog (Sample.pagesOf 1) (by decide)
  have hfew : (Sample.auditLog.selectWhere
      (Sample.pagesOf 1).Matches).length < 4 :=
    Nat.lt_succ_of_le (List.length_filter_le _ Sample.auditLog.rows)
  exact ⟨pages, hpages 4 hfew, hperm, hsorted⟩

end X402Guard.Dashboard
