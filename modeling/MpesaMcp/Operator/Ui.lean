import MpesaMcp.App.Http
import MpesaMcp.Library.Markup

/-!
# Minimal operator console UI

The script of the console renders what the API answers as HTML, which it assigns to `innerHTML`. Texts
are lists of characters here. How JavaScript writes a number, and how pydantic writes a time, are
parameters.
-/

set_option autoImplicit false

namespace MpesaMcp

open Library Python

/-- A value of a response that is rendered. -/
inductive JsValue
  | undefined
  | null
  | string (value : List Char)
  | number (value : Int)
deriving DecidableEq, Repr

namespace OperatorUi

/-- The replacements of `escapeHtml`. -/
def htmlCodes : List (Char × List Char) := [
  ('&', "&amp;".toList),
  ('<', "&lt;".toList),
  ('>', "&gt;".toList),
  ('"', "&quot;".toList),
  ('\'', "&#039;".toList)]

/-- The character references of these replacements. -/
def html : Escapes where
  mark := '&'
  codes := htmlCodes
  marked := by
    intro e he
    simp only [htmlCodes, List.mem_cons, List.not_mem_nil, or_false] at he
    rcases he with rfl | rfl | rfl | rfl | rfl <;> exact ⟨_, rfl⟩
  escaped := ⟨_, List.mem_cons_self, rfl⟩
  prefixFree := by decide

/-- `String(number)`. -/
abbrev NumberText := Int → List Char

variable (numberText : NumberText)

/-- `String(value ?? "")`. -/
def displayed : JsValue → List Char
  | .undefined => []
  | .null => []
  | .string value => value
  | .number value => numberText value

/-- `value || ""`. -/
def orEmpty : JsValue → JsValue
  | .undefined => .string []
  | .null => .string []
  | .string value => .string value
  | .number value => if value = 0 then .string [] else .number value

def escapeHtml (value : JsValue) : List Char := html.escape (displayed numberText value)

def table (headers : List (List Char)) (rows : List (List JsValue)) : List Char :=
  if rows = [] then "<p>No records yet.</p>".toList
  else
    let headerCells := headers.flatMap fun header =>
      "<th>".toList ++ escapeHtml numberText (.string header) ++ "</th>".toList
    let bodyRows := rows.flatMap fun row =>
      "<tr>".toList ++ (row.flatMap fun cell =>
        "<td>".toList ++ escapeHtml numberText cell ++ "</td>".toList) ++ "</tr>".toList
    "\n        <table>\n          <thead><tr>".toList ++ headerCells ++
      "</tr></thead>\n          <tbody>\n            ".toList ++ bodyRows ++
      "\n          </tbody>\n        </table>\n      ".toList

/-- The fields of a transaction that are rendered. -/
structure TransactionItem where
  provider : JsValue
  rail : JsValue
  status : JsValue
  amount : JsValue
  phoneNumber : JsValue
  createdAt : JsValue

/-- The cells of a transaction. -/
def TransactionItem.cells (item : TransactionItem) : List JsValue :=
  [item.provider, item.rail, item.status, item.amount, item.phoneNumber, item.createdAt]

def renderTransactions (transactions : List TransactionItem) : List Char :=
  table numberText ["Provider".toList, "Rail".toList, "Status".toList, "Amount".toList,
    "Phone".toList, "Created".toList] (transactions.map TransactionItem.cells)

/-- The fields of an approval request that are rendered. -/
structure ApprovalItem where
  approvalId : JsValue
  action : JsValue
  reason : JsValue
  createdAt : JsValue

/-- The item for a request in the response of `GET /approvals/pending`. -/
def ApprovalItem.ofRequest (jsonTime : Datetime → String) (approval : ApprovalRequest) :
    ApprovalItem where
  approvalId := .string approval.approvalId.toList
  action := .string approval.action.toList
  reason := .string approval.reason.toList
  createdAt := .string (jsonTime approval.createdAt).toList

/-- A row of the table of approvals. -/
def approvalRow (item : ApprovalItem) : List Char :=
  "\n        <tr>\n          <td>".toList ++ escapeHtml numberText item.approvalId ++
    "</td>\n          <td>".toList ++ escapeHtml numberText item.action ++
    "</td>\n          <td>".toList ++ escapeHtml numberText item.reason ++
    "</td>\n          <td>".toList ++ escapeHtml numberText item.createdAt ++
    "</td>\n          <td class=\"actions\">\n            ".toList ++
    "<button class=\"primary\" data-approve=\"".toList ++ escapeHtml numberText item.approvalId ++
    "\">Approve</button>\n            ".toList ++
    "<button class=\"danger\" data-reject=\"".toList ++ escapeHtml numberText item.approvalId ++
    "\">Reject</button>\n          </td>\n        </tr>\n      ".toList

def renderApprovals (approvals : List ApprovalItem) : List Char :=
  if approvals = [] then "<p>No pending approvals.</p>".toList
  else
    let rows := approvals.flatMap (approvalRow numberText)
    "\n        <table>\n          <thead><tr><th>ID</th><th>Action</th><th>Reason</th>".toList ++
      "<th>Created</th><th>Decision</th></tr></thead>\n          <tbody>".toList ++ rows ++
      "</tbody>\n        </table>\n      ".toList

/-- The fields of an audit event that are rendered. -/
structure AuditEventItem where
  eventType : JsValue
  actor : JsValue
  correlationId : JsValue
  createdAt : JsValue

/-- The cells of an audit event. -/
def AuditEventItem.cells (item : AuditEventItem) : List JsValue :=
  [item.eventType, orEmpty item.actor, orEmpty item.correlationId, item.createdAt]

def renderAuditEvents (events : List AuditEventItem) : List Char :=
  table numberText ["Event".toList, "Actor".toList, "Correlation".toList, "Created".toList]
    (events.map AuditEventItem.cells)

/-- The fields of the summary that are rendered. -/
structure AnalyticsSummary where
  totalTransactions : JsValue
  completedTransactions : JsValue
  failedTransactions : JsValue
  pendingTransactions : JsValue
  totalRevenue : JsValue

/-- The labelled numbers of a summary. -/
def AnalyticsSummary.metrics (summary : AnalyticsSummary) : List (List Char × JsValue) := [
  ("Total".toList, summary.totalTransactions),
  ("Completed".toList, summary.completedTransactions),
  ("Failed".toList, summary.failedTransactions),
  ("Pending".toList, summary.pendingTransactions),
  ("Revenue".toList, summary.totalRevenue)]

def renderAnalytics (summary : AnalyticsSummary) : List Char :=
  summary.metrics.flatMap fun (label, value) =>
    "\n        <div class=\"metric\">\n          <span>".toList ++
      escapeHtml numberText (.string label) ++
      "</span>\n          <strong>".toList ++ escapeHtml numberText value ++
      "</strong>\n        </div>\n      ".toList

end OperatorUi

end MpesaMcp
