import LightningServer.Handler.ApiHandler

/-!
# Which handler a request gets

A request has one of eight routes, by its path and its method.  The digits of
a path are all of them, and their number is converted to `int`; the routes
with digits throw when it does not fit, and no other route throws before its
handler.
-/

namespace LightningServer.Handler

open LightningServer.Foundation
open LightningServer.Foundation.Numerals
open LightningServer.Net
open LightningServer.Store
open LightningServer.Service
open LightningServer.Handler.ApiHandler

/-! ## The digits of a path -/

/-- What `(\d+)` matches. -/
def IsDigits (digits : Bytes) : Prop :=
  digits ≠ [] ∧ ∀ byte ∈ digits, isDigit byte = true

/-- The number that digits name, however many they are. -/
def numberOf (digits : Bytes) : Nat :=
  Nat.ofDigitChars 10 (chars digits) 0

/-- The conversion of digits throws exactly when they exceed `int`. -/
theorem stoi_digits {digits : Bytes} (isDigits : IsDigits digits) :
    stoi (chars digits) =
      if numberOf digits < 2 ^ 31 then .ok (numberOf digits : Int)
      else .error .outOfRange := by
  rcases isDigits with ⟨nonempty, clean⟩
  have some : chars digits ≠ [] := by
    simpa [chars] using nonempty
  have fits : IsInt (numberOf digits : Int) ↔ numberOf digits < 2 ^ 31 := by
    rw [IsInt]
    omega
  have areDigits : ∀ symbol ∈ chars digits, symbol.isDigit = true :=
    isDigit_chars clean
  simp only [stoi, readSigned_digits some areDigits, some, if_false,
    Bool.false_eq_true]
  simp only [← fits]
  rfl

theorem takeWhile_digits
    {digits ending : Bytes} (clean : ∀ byte ∈ digits, isDigit byte = true)
    (stops : ∀ byte ∈ ending.head?, isDigit byte = false) :
    (digits ++ ending).takeWhile isDigit = digits := by
  rw [List.takeWhile_append_of_pos clean]
  cases ending with
  | nil => simp
  | cons byte rest =>
      rw [List.takeWhile_cons_of_neg (by simp [stops byte rfl]),
        List.append_nil]

/-- The paths that a route with digits matches. -/
theorem matchId_eq_some_iff
    {ending path digits : Bytes}
    (stops : ∀ byte ∈ ending.head?, isDigit byte = false) :
    matchId ending path = some digits ↔
      IsDigits digits ∧ path = ascii "/api/articles/" ++ digits ++ ending := by
  generalize isStart : ascii "/api/articles/" = start
  rw [matchId, isStart]
  constructor
  · intro found
    simp only [Option.ite_none_right_eq_some, Option.some.injEq] at found
    rcases found with ⟨⟨front, nonempty, rest⟩, rfl⟩
    refine ⟨⟨nonempty, fun byte member => List.mem_takeWhile_imp member⟩, ?_⟩
    have back :=
      List.prefix_iff_eq_append.mp
        (List.takeWhile_prefix (l := path.drop start.length) isDigit)
    rw [rest] at back
    rw [List.append_assoc, back]
    exact (List.take_append_drop start.length path).symm.trans
      (congrArg (· ++ path.drop start.length) front)
  · rintro ⟨⟨nonempty, clean⟩, rfl⟩
    have front : (start ++ digits ++ ending).take start.length = start := by
      rw [List.append_assoc, List.take_left]
    have back :
        (start ++ digits ++ ending).drop start.length = digits ++ ending := by
      rw [List.append_assoc, List.drop_left]
    simp only [front, back, takeWhile_digits clean stops]
    rw [if_pos ⟨trivial, nonempty, List.drop_left⟩]

theorem articleDetailRe_eq_some_iff {path digits : Bytes} :
    articleDetailRe path = some digits ↔
      IsDigits digits ∧ path = ascii "/api/articles/" ++ digits := by
  rw [articleDetailRe, matchId_eq_some_iff (by simp), List.append_nil]

theorem commentsRe_eq_some_iff {path digits : Bytes} :
    commentsRe path = some digits ↔
      IsDigits digits ∧
        path = ascii "/api/articles/" ++ digits ++ ascii "/comments" := by
  apply matchId_eq_some_iff
  intro byte isHead
  have slash : (ascii "/comments").head? = some 47 := rfl
  rw [slash] at isHead
  cases isHead
  rfl

/-! ## The routes -/

inductive Route where
  | health
  | articles
  | hot
  | detail (digits : Bytes)
  | getComments (digits : Bytes)
  | createComment (digits : Bytes)
  | wrongMethod (digits : Bytes)
  | unknown
deriving DecidableEq

/-- The digits in the path of a route. -/
def Route.digits : Route → Option Bytes
  | .detail digits => some digits
  | .getComments digits => some digits
  | .createComment digits => some digits
  | .wrongMethod digits => some digits
  | _ => none

/-- The route after the detail of an article. -/
def commentsRoute (req : HttpRequest) : Route :=
  match commentsRe req.path with
  | some digits =>
      if req.method = ascii "GET" then .getComments digits
      else if req.method = ascii "POST" then .createComment digits
      else .wrongMethod digits
  | none => .unknown

/-- The route of a request, in the order in which they are tried. -/
def route (req : HttpRequest) : Route :=
  let isGet : Bool := req.method = ascii "GET"
  if req.path = ascii "/api/health" ∧ isGet then .health
  else if req.path = ascii "/api/articles" ∧ isGet then .articles
  else if req.path = ascii "/api/articles/hot" ∧ isGet then .hot
  else
    match articleDetailRe req.path, isGet with
    | some digits, true => .detail digits
    | _, _ => commentsRoute req

section

variable (json : JsonLibrary) (req : HttpRequest) (resp : HttpResponse)

/-- The code behind a route. -/
def handle : Route → Service HttpResponse
  | .health => pure (answer resp .k200Ok healthBody)
  | .articles => handleGetArticles json req resp
  | .hot => handleGetHotArticles json req resp
  | .detail digits => do
      let id ← Program.ofExcept (stoi (chars digits))
      handleGetArticleDetail json resp id
  | .getComments digits => do
      let articleId ← Program.ofExcept (stoi (chars digits))
      handleGetComments json req resp articleId
  | .createComment digits => do
      let articleId ← Program.ofExcept (stoi (chars digits))
      handleCreateComment json req resp articleId
  | .wrongMethod digits => do
      let _ ← Program.ofExcept (stoi (chars digits))
      pure (answer resp .k405MethodNotAllowed
        (jsonError json (text "Method not allowed") 405))
  | .unknown =>
      pure (answer resp .k404NotFound
        (jsonError json (text "Not Found") 404))

theorem handleComments_eq :
    handleComments json req resp =
      handle json req resp (commentsRoute req) := by
  rw [handleComments, commentsRoute]
  cases commentsRe req.path with
  | none => rfl
  | some digits =>
      by_cases isGet : req.method = ascii "GET"
      · simp only [isGet, if_true, handle]
      by_cases isPost : req.method = ascii "POST"
      · simp only [if_neg isGet, if_pos isPost, handle]
      · simp only [if_neg isGet, if_neg isPost, handle]

theorem handleRequest_eq :
    handleRequest json req resp = handle json req resp (route req) := by
  rw [handleRequest, route]
  split
  · rfl
  split
  · rfl
  split
  · rfl
  cases articleDetailRe req.path with
  | none => exact handleComments_eq json req resp
  | some digits =>
      cases decide (req.method = ascii "GET") with
      | true => rfl
      | false => exact handleComments_eq json req resp

end

/-- A route with digits, and the path that it is for. -/
theorem digits_commentsRoute
    {req : HttpRequest} {digits : Bytes}
    (found : (commentsRoute req).digits = some digits) :
    commentsRe req.path = some digits := by
  rw [commentsRoute] at found
  split at found
  · next other matched =>
      rw [matched]
      split at found
      · exact found
      split at found
      · exact found
      · exact found
  · cases found

theorem isDigits_of_route
    {req : HttpRequest} {digits : Bytes}
    (found : (route req).digits = some digits) : IsDigits digits := by
  rw [route] at found
  split at found
  · cases found
  split at found
  · cases found
  split at found
  · cases found
  split at found
  · next other matched isGet =>
      cases found
      exact (articleDetailRe_eq_some_iff.mp matched).1
  · exact (commentsRe_eq_some_iff.mp (digits_commentsRoute found)).1

/-- A `POST` to the comments of an article is a comment post. -/
theorem route_post
    {req : HttpRequest} {digits : Bytes}
    (isPost : req.method = ascii "POST")
    (matched : commentsRe req.path = some digits) :
    route req = .createComment digits := by
  have notGet : ¬ req.method = ascii "GET" := by
    rw [isPost]
    decide
  have comments : commentsRoute req = .createComment digits := by
    rw [commentsRoute, matched]
    simp only [if_neg notGet, if_pos isPost]
  rw [route]
  simp only [notGet, decide_false, Bool.false_eq_true, and_false, if_false]
  cases articleDetailRe req.path with
  | none => exact comments
  | some other => exact comments

end LightningServer.Handler
