/-!
Line ends. A text file may end its lines with a line feed, a carriage return or both; reading
it gives line feeds only.
-/

namespace NameserverAudit.Text

/-- Every carriage return, with the line feed after it if there is one, becomes a line feed. -/
def unifyNewlines : List Char → List Char
  | [] => []
  | '\r' :: '\n' :: rest => '\n' :: unifyNewlines rest
  | c :: rest => (if c = '\r' then '\n' else c) :: unifyNewlines rest

end NameserverAudit.Text
