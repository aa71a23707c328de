import MpesaMcp.Laws.SeparationOfDuties
import MpesaMcp.Operator.Ui

/-!
# What the operator console shows

Whatever the values of a response hold, the HTML that the console renders of them is read as the tags of
its template, with the values as the texts of the cells (`tables_show_values`) and the ids of the
approvals as the values of their buttons (`renderApprovals_shows`). No value becomes a tag or ends an
attribute, so each button of the page that an approver is sent acts on the request of its row
(`pending_page_shows`).
-/

set_option autoImplicit false

namespace MpesaMcp

open Library Python

namespace OperatorUi

variable (numberText : NumberText)

/-! ## Escaping -/

/-- An escaped text opens no tag. -/
theorem lt_not_mem (cs : List Char) : '<' ∉ html.escape cs :=
  html.not_mem_escape (by decide) (by decide) cs

/-- An escaped text ends no attribute. -/
theorem quote_not_mem (cs : List Char) : '"' ∉ html.escape cs :=
  html.not_mem_escape (by decide) (by decide) cs

/-- A page is written part by part. -/
theorem writeTokens_append (xs ys : List Token) :
    writeTokens html (xs ++ ys) = writeTokens html xs ++ writeTokens html ys :=
  List.flatMap_append

theorem writeTokens_flatMap {α : Type} (f : α → List Token) (as : List α) :
    writeTokens html (as.flatMap f) = as.flatMap fun a => writeTokens html (f a) :=
  List.flatMap_assoc

/-! ## Tables -/

/-- A cell with a text. -/
def cell (name content : List Char) : List Token :=
  [.opening name [], .text content, .closing name]

def rowTokens (row : List (List Char)) : List Token :=
  .opening "tr".toList [] :: row.flatMap (cell "td".toList) ++ [.closing "tr".toList]

/-- The tokens of a table in front of its headers. -/
def tableStart : List Token := [
  .text "\n        ".toList, .opening "table".toList [],
  .text "\n          ".toList, .opening "thead".toList [], .opening "tr".toList []]

/-- The tokens between headers and rows. -/
def tableMiddle : List Token := [
  .closing "tr".toList, .closing "thead".toList,
  .text "\n          ".toList, .opening "tbody".toList [], .text "\n            ".toList]

def tableEnd : List Token := [
  .text "\n          ".toList, .closing "tbody".toList,
  .text "\n        ".toList, .closing "table".toList, .text "\n      ".toList]

def tableTokens (headers : List (List Char)) (rows : List (List (List Char))) : List Token :=
  if rows = [] then cell "p".toList "No records yet.".toList
  else tableStart ++ headers.flatMap (cell "th".toList) ++ tableMiddle ++ rows.flatMap rowTokens ++
    tableEnd

/-- How a cell is written. -/
theorem write_cell (name content : List Char) :
    writeTokens html (cell name content) =
      '<' :: name ++ ['>'] ++ html.escape content ++ ('<' :: '/' :: name ++ ['>']) := by
  simp [writeTokens, cell, Token.write]

/-- A row of cells, as its template writes it. -/
theorem write_row (row : List (List Char)) :
    writeTokens html (rowTokens row) = "<tr>".toList ++ (row.flatMap fun content =>
      writeTokens html (cell "td".toList content)) ++ "</tr>".toList := by
  have hopening : writeTokens html [.opening "tr".toList []] = "<tr>".toList := by decide
  have hclosing : writeTokens html [.closing "tr".toList] = "</tr>".toList := by decide
  rw [← hopening, ← hclosing, ← writeTokens_flatMap, ← writeTokens_append, ← writeTokens_append]
  rfl

/-- The string that `table` builds is the writing of its tokens. From here on the template is not
looked at: what a tokenizer reads is a fact about written tokens. -/
theorem table_eq (headers : List (List Char)) (rows : List (List JsValue)) :
    table numberText headers rows = writeTokens html
      (tableTokens headers (rows.map fun row => row.map (displayed numberText))) := by
  have hstart : "\n        <table>\n          <thead><tr>".toList = writeTokens html tableStart := by
    decide
  have hmiddle : "</tr></thead>\n          <tbody>\n            ".toList =
      writeTokens html tableMiddle := by
    decide
  have hend : "\n          </tbody>\n        </table>\n      ".toList = writeTokens html tableEnd := by
    decide
  unfold table tableTokens
  by_cases hrows : rows = []
  · rw [if_pos hrows, if_pos (by simp [hrows])]
    decide
  · rw [if_neg hrows, if_neg (by simpa using hrows)]
    dsimp only
    rw [hstart, hmiddle, hend]
    simp only [writeTokens_append, writeTokens_flatMap, List.flatMap_map, write_row, write_cell,
      escapeHtml]
    rfl

/-! ## Reading a table -/

theorem plain_cell {name : List Char} (plain : PlainName name) (content : List Char) :
    ∀ token ∈ cell name content, token.Plain := by
  intro token htoken
  simp only [cell, List.mem_cons, List.not_mem_nil, or_false] at htoken
  rcases htoken with rfl | rfl | rfl
  · exact ⟨plain, by simp⟩
  · trivial
  · exact plain

theorem plain_flatMap {α : Type} {f : α → List Token} (h : ∀ a, ∀ token ∈ f a, token.Plain)
    (as : List α) : ∀ token ∈ as.flatMap f, token.Plain := by
  intro token htoken
  obtain ⟨a, -, ha⟩ := List.mem_flatMap.mp htoken
  exact h a token ha

theorem plain_append {xs ys : List Token} (hxs : ∀ token ∈ xs, token.Plain)
    (hys : ∀ token ∈ ys, token.Plain) : ∀ token ∈ xs ++ ys, token.Plain := by
  intro token htoken
  rcases List.mem_append.mp htoken with hx | hy
  · exact hxs token hx
  · exact hys token hy

theorem plain_rowTokens (row : List (List Char)) : ∀ token ∈ rowTokens row, token.Plain := by
  refine plain_append (List.forall_mem_cons.mpr ⟨⟨by decide, by simp⟩, ?_⟩) ?_
  · exact plain_flatMap (plain_cell (by decide)) row
  · exact Token.plain_of_all (by decide)

/-- The names in the template are plain, whatever the cells hold: this is all that reading back asks of
the tokens. -/
theorem plain_tableTokens (headers : List (List Char)) (rows : List (List (List Char))) :
    ∀ token ∈ tableTokens headers rows, token.Plain := by
  have hstart : ∀ token ∈ tableStart, token.Plain := Token.plain_of_all (by decide)
  have hmiddle : ∀ token ∈ tableMiddle, token.Plain := Token.plain_of_all (by decide)
  have hend : ∀ token ∈ tableEnd, token.Plain := Token.plain_of_all (by decide)
  have hheaders := plain_flatMap (plain_cell (show PlainName "th".toList by decide)) headers
  have hrows := plain_flatMap plain_rowTokens rows
  unfold tableTokens
  split_ifs
  · exact plain_cell (by decide) _
  · exact plain_append (plain_append (plain_append (plain_append hstart hheaders) hmiddle) hrows) hend

/-- The texts of cells of one name. -/
theorem contents_cells (name : List Char) (texts : List (List Char)) (rest : List Token) :
    contents name (texts.flatMap (cell name) ++ rest) = texts ++ contents name rest := by
  induction texts with
  | nil => rfl
  | cons text texts ih =>
    show contents name (.opening name [] :: .text text :: .closing name ::
      (texts.flatMap (cell name) ++ rest)) = _
    simp only [contents, if_true, leadingText, List.append_nil, ih, List.cons_append]

/-- The cells of another name. -/
theorem contents_other {name other : List Char} (h : other ≠ name) (texts : List (List Char))
    (rest : List Token) :
    contents name (texts.flatMap (cell other) ++ rest) = contents name rest := by
  induction texts with
  | nil => rfl
  | cons text texts ih =>
    show contents name (.opening other [] :: .text text :: .closing other ::
      (texts.flatMap (cell other) ++ rest)) = _
    simp only [contents, if_neg h, ih]

/-- The cells of the rows, in their order, and then those of what follows: by induction on the rows. -/
theorem contents_rows (rows : List (List (List Char))) (rest : List Token) :
    contents "td".toList (rows.flatMap rowTokens ++ rest) =
      rows.flatten ++ contents "td".toList rest := by
  induction rows with
  | nil => rfl
  | cons row rows ih =>
    rw [List.flatMap_cons, List.append_assoc, List.flatten_cons, List.append_assoc, ← ih]
    show contents _ ((.opening "tr".toList [] :: row.flatMap (cell "td".toList) ++
      [.closing "tr".toList]) ++ _) = _
    rw [List.append_assoc, List.cons_append, contents, if_neg (by decide), contents_cells]
    rfl

/-- The headers are in cells of another name, so they are not among these contents. -/
theorem contents_tableTokens (headers : List (List Char)) (rows : List (List (List Char))) :
    contents "td".toList (tableTokens headers rows) = rows.flatten := by
  unfold tableTokens
  split_ifs with hrows
  · rw [hrows]
    decide
  · have hstart : ∀ rest, contents "td".toList (tableStart ++ rest) = contents "td".toList rest :=
      fun rest => rfl
    have hmiddle : ∀ rest, contents "td".toList (tableMiddle ++ rest) = contents "td".toList rest :=
      fun rest => rfl
    have hend : contents "td".toList tableEnd = [] := by decide
    simp only [List.append_assoc]
    rw [hstart, contents_other (by decide), hmiddle, contents_rows, hend, List.append_nil]

/-- The same table with no texts. -/
abbrev blank {α : Type} (texts : List α) : List (List Char) := texts.map fun _ => []

/-- The tags of a table do not depend on its texts. -/
theorem tags_tableTokens (headers : List (List Char)) (rows : List (List (List Char))) :
    (tableTokens headers rows).filter Token.isTag =
      (tableTokens (blank headers) (rows.map blank)).filter Token.isTag := by
  have hcells : ∀ (name : List Char) (texts : List (List Char)),
      (texts.flatMap (cell name)).filter Token.isTag =
        ((blank texts).flatMap (cell name)).filter Token.isTag := by
    intro name texts
    rw [List.filter_flatMap, List.filter_flatMap, List.flatMap_map]
    rfl
  have hrow : ∀ row : List (List Char), (rowTokens row).filter Token.isTag =
      (rowTokens (blank row)).filter Token.isTag := by
    intro row
    simp only [rowTokens, List.cons_append, List.filter_cons, List.filter_append, hcells _ row]
  unfold tableTokens
  by_cases hrows : rows = []
  · rw [if_pos hrows, if_pos (by simp [hrows])]
  · rw [if_neg hrows, if_neg (by simpa using hrows)]
    have hbody : (rows.flatMap rowTokens).filter Token.isTag =
        ((rows.map blank).flatMap rowTokens).filter Token.isTag := by
      rw [List.filter_flatMap, List.filter_flatMap, List.flatMap_map, funext hrow]
    simp only [List.filter_append, hcells _ headers, hbody]

/-- A document is read as the tags of a table of this shape, whose cells hold these values in order. -/
def ShowsTable (document : List Char) (headers : List (List Char)) (rows : List (List JsValue)) : Prop :=
  ∃ tokens, scan html (.content []) document = some tokens ∧
    contents "td".toList tokens = rows.flatten.map (displayed numberText) ∧
    tokens.filter Token.isTag = (tableTokens (blank headers) (rows.map blank)).filter Token.isTag

/-- A table is read back as its own tags and texts: it is written from plain tokens, and
`scan_writeTokens` reads those back. -/
theorem table_shows (headers : List (List Char)) (rows : List (List JsValue)) :
    ShowsTable numberText (table numberText headers rows) headers rows := by
  let texts := rows.map fun row => row.map (displayed numberText)
  refine ⟨merge (tableTokens headers texts), ?_, ?_, ?_⟩
  · rw [table_eq]
    exact scan_write lt_not_mem quote_not_mem (plain_tableTokens headers texts)
  · rw [contents_merge, contents_tableTokens, List.map_flatten]
  · rw [filter_merge, tags_tableTokens, List.map_map]
    have hblank : (blank ∘ fun row : List JsValue => row.map (displayed numberText)) = blank := by
      funext row
      exact List.map_map
    rw [hblank]

/-! ## Numbers of a day -/

/-- The tokens of one number. -/
def metricTokens (label value : List Char) : List Token :=
  [.text "\n        ".toList, .opening "div".toList [("class".toList, "metric".toList)],
    .text "\n          ".toList] ++ cell "span".toList label ++ [.text "\n          ".toList] ++
    cell "strong".toList value ++
    [.text "\n        ".toList, .closing "div".toList, .text "\n      ".toList]

/-- The string that `renderAnalytics` builds is the writing of one box for each metric. -/
theorem renderAnalytics_eq (summary : AnalyticsSummary) :
    renderAnalytics numberText summary = writeTokens html (summary.metrics.flatMap fun metric =>
      metricTokens metric.1 (displayed numberText metric.2)) := by
  have hstart : "\n        <div class=\"metric\">\n          <span>".toList =
      writeTokens html [.text "\n        ".toList,
        .opening "div".toList [("class".toList, "metric".toList)], .text "\n          ".toList] ++
          ('<' :: "span".toList ++ ['>']) := by
    decide
  have hbetween : "</span>\n          <strong>".toList = ('<' :: '/' :: "span".toList ++ ['>']) ++
      writeTokens html [.text "\n          ".toList] ++ ('<' :: "strong".toList ++ ['>']) := by
    decide
  have hend : "</strong>\n        </div>\n      ".toList = ('<' :: '/' :: "strong".toList ++ ['>']) ++
      writeTokens html [.text "\n        ".toList, .closing "div".toList, .text "\n      ".toList] := by
    decide
  rw [writeTokens_flatMap]
  simp only [renderAnalytics, metricTokens, writeTokens_append, write_cell, escapeHtml, hstart, hbetween,
    hend, List.append_assoc]
  rfl

/-- The texts of one box in front of other tokens: its label, and its number. -/
theorem contents_metric (label value : List Char) (rest : List Token) :
    contents "span".toList (metricTokens label value ++ rest) =
        label :: contents "span".toList rest ∧
      contents "strong".toList (metricTokens label value ++ rest) =
        value :: contents "strong".toList rest := by
  have hlabel : contents "span".toList (metricTokens label value ++ rest) =
      (label ++ []) :: contents "span".toList rest := rfl
  have hvalue : contents "strong".toList (metricTokens label value ++ rest) =
      (value ++ []) :: contents "strong".toList rest := rfl
  rw [List.append_nil] at hlabel hvalue
  exact ⟨hlabel, hvalue⟩

/-- The boxes in their order: the labels are the texts of the spans, the numbers those of the strong
ones. -/
theorem contents_metrics (metrics : List (List Char × List Char)) :
    let tokens := metrics.flatMap fun metric => metricTokens metric.1 metric.2
    contents "span".toList tokens = metrics.map Prod.fst ∧
      contents "strong".toList tokens = metrics.map Prod.snd := by
  intro tokens
  induction metrics with
  | nil => exact ⟨rfl, rfl⟩
  | cons metric metrics ih =>
    obtain ⟨hlabel, hvalue⟩ := contents_metric metric.1 metric.2
      (metrics.flatMap fun metric => metricTokens metric.1 metric.2)
    exact ⟨hlabel.trans (congrArg (metric.1 :: ·) ih.1), hvalue.trans (congrArg (metric.2 :: ·) ih.2)⟩

/-- The names in a box are plain, whatever its label and value hold. -/
theorem plain_metric (label value : List Char) : ∀ token ∈ metricTokens label value, token.Plain := by
  refine plain_append (plain_append (plain_append (plain_append ?_ ?_) ?_) ?_) ?_
  · exact Token.plain_of_all (by decide)
  · exact plain_cell (by decide) _
  · exact Token.plain_of_all (by decide)
  · exact plain_cell (by decide) _
  · exact Token.plain_of_all (by decide)

/-- A document is read as the tags of so many boxes, with these labels and these values in order. -/
def ShowsMetrics (document : List Char) (metrics : List (List Char × JsValue)) : Prop :=
  ∃ tokens, scan html (.content []) document = some tokens ∧
    contents "span".toList tokens = metrics.map Prod.fst ∧
    contents "strong".toList tokens = metrics.map (fun metric => displayed numberText metric.2) ∧
    tokens.filter Token.isTag = (metrics.flatMap fun _ => metricTokens [] []).filter Token.isTag

/-- The boxes of a summary are read as they were meant: escaping leaves no character that a label or a
value could begin a tag with, so the tags are those of empty boxes. -/
theorem renderAnalytics_shows (summary : AnalyticsSummary) :
    ShowsMetrics numberText (renderAnalytics numberText summary) summary.metrics := by
  let texts := summary.metrics.map fun metric => (metric.1, displayed numberText metric.2)
  have htokens : (summary.metrics.flatMap fun metric =>
      metricTokens metric.1 (displayed numberText metric.2)) =
      texts.flatMap fun metric => metricTokens metric.1 metric.2 := by
    rw [List.flatMap_map]
  obtain ⟨hlabels, hvalues⟩ := contents_metrics texts
  refine ⟨merge (texts.flatMap fun metric => metricTokens metric.1 metric.2), ?_, ?_, ?_, ?_⟩
  · rw [renderAnalytics_eq, htokens]
    exact scan_write lt_not_mem quote_not_mem
      (plain_flatMap (fun metric => plain_metric metric.1 metric.2) texts)
  · rw [contents_merge, hlabels, List.map_map]
    rfl
  · rw [contents_merge, hvalues, List.map_map]
    rfl
  · rw [filter_merge, ← htokens, List.filter_flatMap, List.filter_flatMap]
    rfl

/-- **The console shows what the API answers**: whatever the fields of transactions, audit events and the
summary hold, each table is read as the tags of its template with the fields as the texts of its cells,
and the summary as the tags of its boxes with the labels and the numbers as their texts. -/
theorem tables_show_values (transactions : List TransactionItem) (events : List AuditEventItem)
    (summary : AnalyticsSummary) :
    ShowsTable numberText (renderTransactions numberText transactions)
      ["Provider".toList, "Rail".toList, "Status".toList, "Amount".toList, "Phone".toList,
        "Created".toList] (transactions.map TransactionItem.cells) ∧
    ShowsTable numberText (renderAuditEvents numberText events)
      ["Event".toList, "Actor".toList, "Correlation".toList, "Created".toList]
      (events.map AuditEventItem.cells) ∧
    ShowsMetrics numberText (renderAnalytics numberText summary) summary.metrics :=
  ⟨table_shows numberText _ _, table_shows numberText _ _, renderAnalytics_shows numberText summary⟩

/-! ## Approvals -/

/-- The blank in front of a cell. -/
def rowBlank : List Token := [.text "\n          ".toList]

def rowStart : List Token := [.text "\n        ".toList, .opening "tr".toList []] ++ rowBlank

/-- The tokens in front of the buttons. -/
def rowActions : List Token :=
  rowBlank ++ [.opening "td".toList [("class".toList, "actions".toList)], .text "\n            ".toList]

def button (style key approvalId : List Char) : List Token :=
  [.opening "button".toList [("class".toList, style), (key, approvalId)]]

/-- The tokens between the buttons. -/
def rowApprove : List Token :=
  [.text "Approve".toList, .closing "button".toList, .text "\n            ".toList]

def rowEnd : List Token := [
  .text "Reject".toList, .closing "button".toList, .text "\n          ".toList,
  .closing "td".toList, .text "\n        ".toList, .closing "tr".toList, .text "\n      ".toList]

/-- The tokens of a row of the table of approvals. -/
def approvalTokens (approvalId action reason createdAt : List Char) : List Token :=
  rowStart ++ cell "td".toList approvalId ++ rowBlank ++ cell "td".toList action ++ rowBlank ++
    cell "td".toList reason ++ rowBlank ++ cell "td".toList createdAt ++ rowActions ++
    button "primary".toList "data-approve".toList approvalId ++ rowApprove ++
    button "danger".toList "data-reject".toList approvalId ++ rowEnd

/-- How a button for a request is written. -/
theorem write_button (style key approvalId : List Char) :
    writeTokens html (button style key approvalId) =
      "<button class=\"".toList ++ html.escape style ++ "\" ".toList ++ key ++ "=\"".toList ++
        html.escape approvalId ++ "\">".toList := by
  have hbutton : "<button class=\"".toList =
      '<' :: "button".toList ++ (' ' :: "class".toList ++ ['=', '"']) := by
    decide
  have hnext : "\" ".toList = ['"', ' '] := by decide
  have hvalue : "=\"".toList = ['=', '"'] := by decide
  have hend : "\">".toList = ['"', '>'] := by decide
  simp [button, writeTokens, Token.write, Token.writeAttribute, hbutton, hnext, hvalue, hend]

/-- How a cell of a row is written. -/
theorem write_td (content : List Char) :
    writeTokens html (cell "td".toList content) =
      "<td>".toList ++ html.escape content ++ "</td>".toList :=
  write_cell "td".toList content

/-! The texts of a row as tokens, each with the ends of the cells and buttons around it. -/

theorem rowStart_eq :
    "\n        <tr>\n          <td>".toList = writeTokens html rowStart ++ "<td>".toList := by
  decide

theorem rowBlank_eq :
    "</td>\n          <td>".toList = "</td>".toList ++ (writeTokens html rowBlank ++ "<td>".toList) := by
  decide

theorem rowActions_eq :
    "</td>\n          <td class=\"actions\">\n            ".toList =
      "</td>".toList ++ writeTokens html rowActions := by
  decide

theorem approveButton_eq :
    "<button class=\"primary\" data-approve=\"".toList = "<button class=\"".toList ++
      (html.escape "primary".toList ++ ("\" ".toList ++ ("data-approve".toList ++ "=\"".toList))) := by
  decide

theorem rowApprove_eq :
    "\">Approve</button>\n            ".toList = "\">".toList ++ writeTokens html rowApprove := by
  decide

theorem rejectButton_eq :
    "<button class=\"danger\" data-reject=\"".toList = "<button class=\"".toList ++
      (html.escape "danger".toList ++ ("\" ".toList ++ ("data-reject".toList ++ "=\"".toList))) := by
  decide

theorem rowEnd_eq :
    "\">Reject</button>\n          </td>\n        </tr>\n      ".toList =
      "\">".toList ++ writeTokens html rowEnd := by
  decide

/-- One row of the approvals page is the writing of its tokens. The pieces of the template above are
put together in its order; the ids stand within quotes, the other fields between tags. -/
theorem approvalRow_eq (item : ApprovalItem) :
    approvalRow numberText item = writeTokens html (approvalTokens
      (displayed numberText item.approvalId) (displayed numberText item.action)
      (displayed numberText item.reason) (displayed numberText item.createdAt)) := by
  unfold approvalRow approvalTokens
  rw [rowStart_eq, rowBlank_eq, rowActions_eq, approveButton_eq, rowApprove_eq, rejectButton_eq,
    rowEnd_eq]
  repeat rw [writeTokens_append]
  rw [write_button, write_button]
  repeat rw [write_td]
  unfold escapeHtml
  simp only [List.append_assoc]

/-- The tokens of a request. -/
def ApprovalItem.tokens (item : ApprovalItem) : List Token :=
  approvalTokens (displayed numberText item.approvalId) (displayed numberText item.action)
    (displayed numberText item.reason) (displayed numberText item.createdAt)

/-- The tokens in front of the rows, in the two parts of the template. -/
def approvalsStart : List Token :=
  tableStart ++ ["ID".toList, "Action".toList, "Reason".toList].flatMap (cell "th".toList)

def approvalsBody : List Token :=
  ["Created".toList, "Decision".toList].flatMap (cell "th".toList) ++ [
    .closing "tr".toList, .closing "thead".toList,
    .text "\n          ".toList, .opening "tbody".toList []]

def approvalsEnd : List Token := [
  .closing "tbody".toList, .text "\n        ".toList, .closing "table".toList,
  .text "\n      ".toList]

def approvalsTokens (approvals : List ApprovalItem) : List Token :=
  if approvals = [] then cell "p".toList "No pending approvals.".toList
  else approvalsStart ++ approvalsBody ++ approvals.flatMap (ApprovalItem.tokens numberText) ++
    approvalsEnd

theorem approvalsStart_eq :
    "\n        <table>\n          <thead><tr><th>ID</th><th>Action</th><th>Reason</th>".toList =
      writeTokens html approvalsStart := by
  decide

theorem approvalsBody_eq :
    "<th>Created</th><th>Decision</th></tr></thead>\n          <tbody>".toList =
      writeTokens html approvalsBody := by
  decide

theorem approvalsEnd_eq :
    "</tbody>\n        </table>\n      ".toList = writeTokens html approvalsEnd := by
  decide

/-- The page is the writing of its tokens, by the same for each row. -/
theorem renderApprovals_eq (approvals : List ApprovalItem) :
    renderApprovals numberText approvals = writeTokens html (approvalsTokens numberText approvals) := by
  unfold renderApprovals approvalsTokens
  by_cases hnone : approvals = []
  · rw [if_pos hnone, if_pos hnone]
    decide
  · rw [if_neg hnone, if_neg hnone]
    dsimp only
    rw [approvalsStart_eq, approvalsBody_eq, approvalsEnd_eq, writeTokens_append, writeTokens_append,
      writeTokens_append, writeTokens_flatMap]
    exact congrArg (fun rows => _ ++ rows ++ _)
      (congrArg approvals.flatMap (funext fun item => approvalRow_eq numberText item))

/-- The names in a row are plain, whatever the request holds. -/
theorem plain_approval (item : ApprovalItem) :
    ∀ token ∈ item.tokens numberText, token.Plain := by
  have htd := plain_cell (show PlainName "td".toList by decide)
  have hbutton : ∀ (style key : List Char), PlainName key → ∀ approvalId,
      ∀ token ∈ button style key approvalId, token.Plain := by
    intro style key hkey approvalId token htoken
    rw [button, List.mem_singleton] at htoken
    rw [htoken]
    refine ⟨by decide, ?_⟩
    intro a ha
    rcases List.mem_cons.mp ha with rfl | hlast
    · exact (by decide : PlainName "class".toList)
    · rw [List.mem_singleton.mp hlast]
      exact hkey
  have hstart : ∀ token ∈ rowStart, token.Plain := Token.plain_of_all (by decide)
  have hblank : ∀ token ∈ rowBlank, token.Plain := Token.plain_of_all (by decide)
  have hactions : ∀ token ∈ rowActions, token.Plain := Token.plain_of_all (by decide)
  have happrove : ∀ token ∈ rowApprove, token.Plain := Token.plain_of_all (by decide)
  have hend : ∀ token ∈ rowEnd, token.Plain := Token.plain_of_all (by decide)
  unfold ApprovalItem.tokens approvalTokens
  refine plain_append (plain_append (plain_append (plain_append (plain_append ?_ hactions) ?_)
    happrove) ?_) hend
  · exact plain_append (plain_append (plain_append (plain_append (plain_append (plain_append
      (plain_append hstart (htd _)) hblank) (htd _)) hblank) (htd _)) hblank) (htd _)
  · exact hbutton _ _ (by decide) _
  · exact hbutton _ _ (by decide) _

/-- The names in the page are plain, whatever its requests hold. -/
theorem plain_approvalsTokens (approvals : List ApprovalItem) :
    ∀ token ∈ approvalsTokens numberText approvals, token.Plain := by
  unfold approvalsTokens
  split_ifs
  · exact plain_cell (by decide) _
  · refine plain_append (plain_append (plain_append ?_ ?_) ?_) ?_
    · exact Token.plain_of_all (by decide)
    · exact Token.plain_of_all (by decide)
    · exact plain_flatMap (plain_approval numberText) approvals
    · exact Token.plain_of_all (by decide)

/-! ## Reading the approvals -/

/-- The cells of a request; the last one holds the buttons, after a blank. -/
def ApprovalItem.texts (item : ApprovalItem) : List (List Char) :=
  [displayed numberText item.approvalId, displayed numberText item.action,
    displayed numberText item.reason, displayed numberText item.createdAt, "\n            ".toList]

/-- The cells of one row are the texts of its request. -/
theorem contents_approval (item : ApprovalItem) (rest : List Token) :
    contents "td".toList (item.tokens numberText ++ rest) =
      item.texts numberText ++ contents "td".toList rest := by
  have hcell : ∀ (text : List Char) (rest : List Token),
      contents "td".toList (cell "td".toList text ++ rest) = text :: contents "td".toList rest := by
    intro text rest
    simpa using contents_cells "td".toList [text] rest
  have hstart : ∀ rest, contents "td".toList (rowStart ++ rest) = contents "td".toList rest :=
    fun rest => rfl
  have hblank : ∀ rest, contents "td".toList (rowBlank ++ rest) = contents "td".toList rest :=
    fun rest => rfl
  have hactions : ∀ style key approvalId rest, contents "td".toList (rowActions ++
      (button style key approvalId ++ rest)) = "\n            ".toList :: contents "td".toList rest :=
    fun style key approvalId rest => rfl
  have hend : ∀ style key approvalId rest, contents "td".toList (rowApprove ++
      (button style key approvalId ++ (rowEnd ++ rest))) = contents "td".toList rest :=
    fun style key approvalId rest => rfl
  unfold ApprovalItem.tokens approvalTokens
  simp only [List.append_assoc, hstart, hcell, hblank, hactions, hend]
  rfl

/-- The cells of the page are the texts of its requests, one row after another. -/
theorem contents_approvalsTokens (approvals : List ApprovalItem) :
    contents "td".toList (approvalsTokens numberText approvals) =
      approvals.flatMap (ApprovalItem.texts numberText) := by
  have hrows : ∀ rest, contents "td".toList
      (approvals.flatMap (ApprovalItem.tokens numberText) ++ rest) =
        approvals.flatMap (ApprovalItem.texts numberText) ++ contents "td".toList rest := by
    intro rest
    induction approvals with
    | nil => rfl
    | cons item approvals ih =>
      rw [List.flatMap_cons, List.append_assoc, contents_approval, ih, List.flatMap_cons,
        List.append_assoc]
  unfold approvalsTokens
  split_ifs with hnone
  · rw [hnone]
    rfl
  · have hstart : ∀ rest, contents "td".toList (approvalsStart ++ (approvalsBody ++ rest)) =
        contents "td".toList rest := fun rest => rfl
    have hend : contents "td".toList approvalsEnd = [] := by decide
    simp only [List.append_assoc]
    rw [hstart, hrows, hend, List.append_nil]

/-- The buttons of one kind have the ids of the requests, in order. -/
theorem values_approvalsTokens {key : List Char}
    (hkey : key = "data-approve".toList ∨ key = "data-reject".toList) (approvals : List ApprovalItem) :
    values key (approvalsTokens numberText approvals) =
      approvals.map fun item => displayed numberText item.approvalId := by
  have happend : ∀ xs ys : List Token, values key (xs ++ ys) = values key xs ++ values key ys :=
    fun xs ys => List.flatMap_append
  have hrow : ∀ item : ApprovalItem, values key (item.tokens numberText) =
      [displayed numberText item.approvalId] := by
    intro item
    rcases hkey with rfl | rfl <;> rfl
  have hrows : values key (approvals.flatMap (ApprovalItem.tokens numberText)) =
      approvals.map fun item => displayed numberText item.approvalId := by
    induction approvals with
    | nil => rfl
    | cons item approvals ih =>
      rw [List.flatMap_cons, happend, hrow, ih]
      rfl
  unfold approvalsTokens
  split_ifs with hnone
  · rw [hnone]
    rcases hkey with rfl | rfl <;> rfl
  · have hstart : values key approvalsStart = [] := by rcases hkey with rfl | rfl <;> decide
    have hbody : values key approvalsBody = [] := by rcases hkey with rfl | rfl <;> decide
    have hend : values key approvalsEnd = [] := by rcases hkey with rfl | rfl <;> decide
    rw [happend, happend, happend, hstart, hbody, hend, hrows, List.append_nil]
    rfl

/-- A request with an id alone. -/
def idOnly (approvalId : JsValue) : ApprovalItem :=
  { approvalId, action := .undefined, reason := .undefined, createdAt := .undefined }

/-- The tags depend on the ids alone. -/
theorem tags_approvalsTokens (approvals : List ApprovalItem) :
    (approvalsTokens numberText approvals).filter Token.isTag =
      (approvalsTokens numberText (approvals.map fun item => idOnly item.approvalId)).filter
        Token.isTag := by
  unfold approvalsTokens
  by_cases hnone : approvals = []
  · rw [if_pos hnone, if_pos (by simp [hnone])]
  · rw [if_neg hnone, if_neg (by simpa using hnone)]
    simp only [List.filter_append, List.filter_flatMap, List.flatMap_map]
    rfl

/-- A page of approvals, as it is read: the tags of the template, the fields of the requests as cells,
and the ids of the requests as the values of the buttons to approve, and of those to reject. -/
structure ShowsApprovals (approvals : List ApprovalItem) (tokens : List Token) : Prop where
  cells : contents "td".toList tokens = approvals.flatMap (ApprovalItem.texts numberText)
  approves : values "data-approve".toList tokens =
    approvals.map fun item => displayed numberText item.approvalId
  rejects : values "data-reject".toList tokens =
    approvals.map fun item => displayed numberText item.approvalId
  tags : tokens.filter Token.isTag = (approvalsTokens numberText (approvals.map fun item =>
    idOnly item.approvalId)).filter Token.isTag

/-- The page is read back as its tags, with the requests' texts in the cells and their ids on the
buttons, since it is written from plain tokens. -/
theorem renderApprovals_shows (approvals : List ApprovalItem) :
    ∃ tokens, scan html (.content []) (renderApprovals numberText approvals) = some tokens ∧
      ShowsApprovals numberText approvals tokens := by
  refine ⟨merge (approvalsTokens numberText approvals), ?_, ?_, ?_, ?_, ?_⟩
  · rw [renderApprovals_eq]
    exact scan_write lt_not_mem quote_not_mem (plain_approvalsTokens numberText approvals)
  · rw [contents_merge, contents_approvalsTokens]
  · rw [values_merge, values_approvalsTokens numberText (Or.inl rfl)]
  · rw [values_merge, values_approvalsTokens numberText (Or.inr rfl)]
  · rw [filter_merge, tags_approvalsTokens]

end OperatorUi

/-! ## The page of pending approvals -/

section Pending

variable {τ π ρ : Type}

/-- What a list of pending requests is that a call returns which began after `since` readings of the
clock: every one that is listed is stored as pending, once, and had not expired by a reading of this
call; one that is stored as pending and not listed had expired by a reading. -/
structure ListsPending (env : Env) (since : Nat) (approvals : List ApprovalRequest) (w : World τ π) :
    Prop where
  stored : ∀ a ∈ approvals, w.approvals.get a.approvalId = some a ∧ a.status = .pending
  distinct : (approvals.map ApprovalRequest.approvalId).Nodup
  unexpired : ∀ a ∈ approvals, ∃ n, since ≤ n ∧ n < w.ambient.clockReads ∧ env.clock n < a.expiresAt
  complete : ∀ a, w.approvals.get a.approvalId = some a → a.status = .pending → a ∉ approvals →
    ∃ n < w.ambient.clockReads, a.expiresAt ≤ env.clock n

/-- The comprehension reads the clock once for each request, and keeps the request exactly if this
reading is before its expiry. -/
theorem run_dropExpired_kept (env : Env) (container : AppContainer τ π)
    {listed : List ApprovalRequest} (pending : ∀ a ∈ listed, a.status = .pending) (w : World τ π) :
    ∃ kept w', Prog.run (handle env container) (ApprovalService.dropExpired listed) w =
        (.ok kept, w') ∧ w'.approvals = w.approvals ∧ kept.Sublist listed ∧
      w.ambient.clockReads ≤ w'.ambient.clockReads ∧
      (∀ a ∈ kept, ∃ n, w.ambient.clockReads ≤ n ∧ n < w'.ambient.clockReads ∧
        env.clock n < a.expiresAt) ∧
      ∀ a ∈ listed, a ∉ kept → ∃ n < w'.ambient.clockReads, a.expiresAt ≤ env.clock n := by
  induction listed generalizing w with
  | nil => exact ⟨[], w, rfl, rfl, .slnil, Nat.le_refl _, by simp, by simp⟩
  | cons a rest ih =>
    obtain ⟨kept, w', hrun, happrovals, hkept, hreads, hearly, hleft⟩ :=
      ih (fun b hb => pending b (List.mem_cons_of_mem _ hb)) (w.readClock env)
    have htest := run_isExpired_pending env container (pending a List.mem_cons_self) w
    have hread : w.ambient.clockReads + 1 ≤ w'.ambient.clockReads := hreads
    have hrest : ∀ b ∈ kept, ∃ n, w.ambient.clockReads ≤ n ∧ n < w'.ambient.clockReads ∧
        env.clock n < b.expiresAt := by
      intro b hb
      obtain ⟨n, hlow, hhigh, hlt⟩ := hearly b hb
      exact ⟨n, Nat.le_of_succ_le hlow, hhigh, hlt⟩
    by_cases hdue : a.expiresAt ≤ env.clock w.ambient.clockReads
    · refine ⟨kept, w', ?_, happrovals, hkept.cons a, by omega, hrest, ?_⟩
      · simp [ApprovalService.dropExpired, htest, hrun, hdue]
      · intro b hb hleave
        rcases List.mem_cons.mp hb with rfl | hb
        · exact ⟨_, by omega, hdue⟩
        · exact hleft b hb hleave
    · refine ⟨a :: kept, w', ?_, happrovals, hkept.cons_cons a, by omega, ?_, ?_⟩
      · simp [ApprovalService.dropExpired, htest, hrun, hdue]
      · intro b hb
        rcases List.mem_cons.mp hb with rfl | hb
        · exact ⟨w.ambient.clockReads, Nat.le_refl _, by omega, not_le.mp hdue⟩
        · exact hrest b hb
      · intro b hb hleave
        rcases List.mem_cons.mp hb with rfl | hb
        · exact absurd List.mem_cons_self hleave
        · exact hleft b hb fun hmem => hleave (List.mem_cons_of_mem _ hmem)

/-- `list_pending_requests` lists the pending requests that have not expired: the sweep in front marks
what is due as expired, and each request that is left is tested once more before it is returned. -/
theorem run_listPendingRequests_lists (env : Env) (container : AppContainer τ π) (w : World τ π) :
    ∃ approvals w', Prog.run (handle env container) ApprovalService.listPendingRequests w =
      (.ok approvals, w') ∧ ListsPending env w.ambient.clockReads approvals w' := by
  obtain ⟨count, w₁, hrun₁, -⟩ := run_expireStaleApprovals env container w
  have hsweep : w.ambient.clockReads ≤ w₁.ambient.clockReads := by
    have hforward := run_forward env container ApprovalService.expireStaleApprovals w
    rw [hrun₁] at hforward
    exact hforward.clockReads
  have hmem : ∀ a, a ∈ InMemoryApprovalRepository.listPending w₁.approvals ↔
      w₁.approvals.get a.approvalId = some a ∧ a.status = .pending := by
    intro a
    simp [InMemoryApprovalRepository.listPending, Keyed.mem_values_iff]
  have hpending : ∀ a ∈ InMemoryApprovalRepository.listPending w₁.approvals, a.status = .pending :=
    fun a ha => ((hmem a).mp ha).2
  obtain ⟨kept, w', hrun, happrovals, hkept, -, hearly, hleft⟩ :=
    run_dropExpired_kept env container hpending w₁
  refine ⟨kept, w', ?_, ?_, ?_, ?_, ?_⟩
  · simp only [ApprovalService.listPendingRequests, Prog.run_bind, hrun₁, run_ask]
    exact hrun
  · intro a ha
    rw [happrovals]
    exact (hmem a).mp (hkept.subset ha)
  · exact (w₁.approvals.nodup.sublist (List.filter_sublist.map _)).sublist (hkept.map _)
  · intro a ha
    obtain ⟨n, hlow, hhigh, hlt⟩ := hearly a ha
    exact ⟨n, hsweep.trans hlow, hhigh, hlt⟩
  · intro a hstored hpending hleave
    rw [happrovals] at hstored
    exact hleft a ((hmem a).mpr ⟨hstored, hpending⟩) hleave

variable (surroundings : Surroundings) (server : Server τ π ρ)

/-- **Every button acts on the request of its row**: the page that the console renders of the response
to an approver is read, whatever the requests hold, as a row for each pending request that has not
expired, with its fields as the cells; the ids of the buttons to approve, and of those to reject, are the
ids of these requests, each once. -/
theorem pending_page_shows (numberText : OperatorUi.NumberText) (jsonTime : Datetime → String)
    {authorization correlationId : Option String} {principal : OperatorIdentity}
    (s : ServerWorld τ π ρ) (admits : Admits surroundings server .approver authorization s principal) :
    let sent := { route := .listPendingApprovals, authorization, correlationId : RouteRequest }
    let r := handleRequest surroundings server sent s
    ∃ approvals tokens, r.1.response = { body := .approvals approvals } ∧
      ListsPending surroundings.env s.app.ambient.clockReads approvals r.2.app ∧
      let items := approvals.map (OperatorUi.ApprovalItem.ofRequest jsonTime)
      scan OperatorUi.html (.content []) (OperatorUi.renderApprovals numberText items) = some tokens ∧
        OperatorUi.ShowsApprovals numberText items tokens ∧
        values "data-approve".toList tokens =
          approvals.map fun approval => approval.approvalId.toList := by
  intro sent r
  let context := correlationContext surroundings.web none correlationId s.logging
  let s₁ := ServerWorld.authenticated surroundings server authorization
    { s with logging := context.2 }
  obtain ⟨approvals, w', hrun, hlists⟩ :=
    run_listPendingRequests_lists surroundings.env server.toAppContainer s₁.app
  let served := server.serve surroundings context.1 ApprovalService.listPendingRequests s₁
  have hanswer : served.1 = .ok approvals :=
    (serve_answer surroundings server context.1 _ s₁).trans (congrArg Prod.fst hrun)
  have happ : served.2.app = w' :=
    (serve_app surroundings server context.1 _ s₁).trans (congrArg Prod.snd hrun)
  have hr : r = (⟨{ body := .approvals approvals }, some context.1⟩, served.2) := by
    refine handleRequest_admitted surroundings server sent rfl admits ?_
    have hcall : handleHttp surroundings server context.1 .listPendingRequests s₁ =
        (.ok approvals, served.2) := Prod.ext hanswer rfl
    simp only [Prog.run_bind, Http.run_call]
    rw [hcall]
    rfl
  let items := approvals.map (OperatorUi.ApprovalItem.ofRequest jsonTime)
  obtain ⟨tokens, hscan, hshows⟩ := OperatorUi.renderApprovals_shows numberText items
  refine ⟨approvals, tokens, congrArg (fun r => r.1.response) hr, ?_, hscan, hshows, ?_⟩
  · rw [hr]
    exact happ ▸ hlists
  · rw [hshows.approves, List.map_map]
    rfl

/-- The page with the first request of a payment of two reviews. -/
theorem pending_page_shows_dual :
    let s : ServerWorld Transactions Unit RateWindows := final (serverStep stillSurroundings tokenServer)
      (.start Keyed.empty () Keyed.empty) (dualApproval.take 1)
    let r := handleRequest stillSurroundings tokenServer {
      route := .listPendingApprovals, authorization := some "Bearer approver-token" } s
    ∃ approvals tokens, r.1.response = { body := .approvals approvals } ∧
      ListsPending stillSurroundings.env s.app.ambient.clockReads approvals r.2.app ∧
      let items := approvals.map (OperatorUi.ApprovalItem.ofRequest Datetime.isoformat)
      scan OperatorUi.html (.content [])
          (OperatorUi.renderApprovals (fun n => (toString n).toList) items) = some tokens ∧
        OperatorUi.ShowsApprovals (fun n => (toString n).toList) items tokens ∧
        values "data-approve".toList tokens =
          approvals.map fun approval => approval.approvalId.toList := by
  intro s
  obtain ⟨principal, hadmits⟩ : ∃ principal, Admits stillSurroundings tokenServer .approver
      (some "Bearer approver-token") s principal :=
    exists_admits stillSurroundings tokenServer (by decide +kernel)
  exact pending_page_shows stillSurroundings tokenServer _ _ s hadmits

end Pending

end MpesaMcp
