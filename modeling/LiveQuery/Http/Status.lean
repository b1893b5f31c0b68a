/-!
# Status codes

A server sends a status as a number; the words that go with it are those of the standard, whatever
the server says.
-/

namespace LiveQuery.Http

/-- The statuses that have been defined, with their words. -/
def reasons : List (Nat × String) :=
  [(100, "Continue"), (101, "Switching Protocols"), (102, "Processing"), (200, "OK"),
    (201, "Created"), (202, "Accepted"), (203, "Non Authoritative Information"),
    (204, "No Content"), (205, "Reset Content"), (206, "Partial Content"), (207, "Multi-Status"),
    (208, "Already Reported"), (226, "IM Used"), (300, "Multiple Choices"),
    (301, "Moved Permanently"), (302, "Found"), (303, "See Other"), (304, "Not Modified"),
    (305, "Use Proxy"), (307, "Temporary Redirect"), (308, "Permanent Redirect"),
    (400, "Bad Request"), (401, "Unauthorized"), (402, "Payment Required"), (403, "Forbidden"),
    (404, "Not Found"), (405, "Method Not Allowed"), (406, "Not Acceptable"),
    (407, "Proxy Authentication Required"), (408, "Request Timeout"), (409, "Conflict"),
    (410, "Gone"), (411, "Length Required"), (412, "Precondition Failed"),
    (413, "Payload Too Large"), (414, "URI Too Long"), (415, "Unsupported Media Type"),
    (416, "Range Not Satisfiable"), (417, "Expectation Failed"), (418, "I'm a teapot"),
    (421, "Misdirected Request"), (422, "Unprocessable Entity"), (423, "Locked"),
    (424, "Failed Dependency"), (425, "Too Early"), (426, "Upgrade Required"),
    (428, "Precondition Required"), (429, "Too Many Requests"),
    (431, "Request Header Fields Too Large"), (451, "Unavailable For Legal Reasons"),
    (500, "Internal Server Error"), (501, "Not Implemented"), (502, "Bad Gateway"),
    (503, "Service Unavailable"), (504, "Gateway Timeout"), (505, "HTTP Version Not Supported"),
    (506, "Variant Also Negotiates"), (507, "Insufficient Storage"), (508, "Loop Detected"),
    (510, "Not Extended"), (511, "Network Authentication Required")]

/-- The words for a status; one that nobody has defined has none. -/
def reason (status : Nat) : String := (reasons.lookup status).getD ""

/-- Whether a reply with this status comes before the one that counts. -/
def isInterim (status : Nat) : Bool := 100 ≤ status && status < 200 && status ≠ 101

/-- Whether a reply with this status has a body. -/
def hasBody (status : Nat) : Bool := status ≠ 101 && status ≠ 204 && status ≠ 304

/-- What a status says about where to ask instead, and how. -/
inductive Redirection where
  /-- Ask there in the same way. -/
  | same
  /-- Ask there, but what was posted is not posted again. -/
  | unposted
  /-- Get what is there. -/
  | get
  deriving DecidableEq, Repr

/-- The redirection that a status stands for. -/
def redirection? (status : Nat) : Option Redirection :=
  if status = 301 ∨ status = 302 then some .unposted
  else if status = 303 then some .get
  else if status = 307 ∨ status = 308 then some .same
  else none

end LiveQuery.Http
