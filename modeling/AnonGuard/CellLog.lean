import AnonGuard.SessionStream

/-!
# What a list of cells carries

The data and the acknowledgements in a list of cells, be it a log or what is
under way on a link.
-/
namespace AnonGuard

/-- The payloads of the data cells in a log. -/
def dataOf (log : List SessionCell) : List Bytes :=
  log.filterMap fun c => if c.command = .data then some c.data else none

/-- The values of the acknowledgements in a log. -/
def acksOf (log : List SessionCell) : List ℕ :=
  log.filterMap fun c => if c.command = .dataAck then some c.ackValue else none

section Logs
variable (l : List SessionCell) {c : SessionCell} {a b : List SessionCell}

@[simp] theorem dataOf_nil : dataOf [] = [] := rfl
@[simp] theorem acksOf_nil : acksOf [] = [] := rfl

@[simp] theorem dataOf_append (a b : List SessionCell) : dataOf (a ++ b) = dataOf a ++ dataOf b :=
  List.filterMap_append

@[simp] theorem acksOf_append (a b : List SessionCell) : acksOf (a ++ b) = acksOf a ++ acksOf b :=
  List.filterMap_append

theorem dataOf_cons (h : c.command = .data) : dataOf (c :: l) = c.data :: dataOf l := by
  simp [dataOf, h]

theorem dataOf_cons_of_ne (h : c.command ≠ .data) : dataOf (c :: l) = dataOf l := by
  simp [dataOf, h]

theorem acksOf_cons (h : c.command = .dataAck) : acksOf (c :: l) = c.ackValue :: acksOf l := by
  simp [acksOf, h]

theorem acksOf_cons_of_ne (h : c.command ≠ .dataAck) : acksOf (c :: l) = acksOf l := by
  simp [acksOf, h]

theorem dataOf_concat (h : c.command = .data) : dataOf (l ++ [c]) = dataOf l ++ [c.data] := by
  rw [dataOf_append, dataOf_cons [] h, dataOf_nil]

theorem dataOf_concat_of_ne (h : c.command ≠ .data) : dataOf (l ++ [c]) = dataOf l := by
  rw [dataOf_append, dataOf_cons_of_ne [] h, dataOf_nil, List.append_nil]

theorem acksOf_concat (h : c.command = .dataAck) :
    acksOf (l ++ [c]) = acksOf l ++ [c.ackValue] := by
  rw [acksOf_append, acksOf_cons [] h, acksOf_nil]

theorem acksOf_concat_of_ne (h : c.command ≠ .dataAck) : acksOf (l ++ [c]) = acksOf l := by
  rw [acksOf_append, acksOf_cons_of_ne [] h, acksOf_nil, List.append_nil]

theorem acksOf_sublist (h : a.Sublist b) : (acksOf a).Sublist (acksOf b) :=
  h.filterMap _

theorem length_dataOf_le (h : a.Sublist b) :
    (dataOf a).length ≤ (dataOf b).length :=
  (h.filterMap _).length_le

end Logs

end AnonGuard
