import LightningServer.Service.CommentOrder
import Mathlib.Algebra.Order.Ring.Nat

/-!
# The length of a comment

The API documents at most 1000 characters, and `createComment` compares
`content.size()`, the number of bytes in UTF-8.  The two agree on texts of
ASCII and on every text of more than 1000 characters.
-/

namespace LightningServer.Service

open LightningServer.Foundation
open LightningServer.Foundation.Numerals
open LightningServer.Store
open LightningServer.Service.CommentService

/-! ## Characters and bytes -/

theorem byteSize_cons (symbol : Char) (content : Text) :
    byteSize (symbol :: content) = symbol.utf8Size + byteSize content :=
  rfl

/-- The size is that of the UTF-8 bytes. -/
theorem length_utf8EncodeChar (content : Text) :
    (content.flatMap String.utf8EncodeChar).length = byteSize content := by
  induction content with
  | nil => rfl
  | cons symbol rest induction =>
      rw [List.flatMap_cons, List.length_append, induction,
        String.length_utf8EncodeChar, byteSize_cons]

theorem length_le_byteSize (content : Text) :
    content.length ≤ byteSize content := by
  induction content with
  | nil => exact Nat.le_refl _
  | cons symbol rest induction =>
      have positive := symbol.utf8Size_pos
      rw [byteSize_cons, List.length_cons]
      omega

/-! ## The answer -/

/-- The message of a response. -/
def message? (response : Json) : Option Text :=
  (response.field? (text "message")).bind Json.string?

/-- The request is refused for the length of its content. -/
def SaysTooLong : Except StdException Json → Prop
  | .ok response =>
      message? response = some (text "content too long (max 1000 chars)")
  | .error _ => False

/-- The length is what is refused exactly when the bytes are too many. -/
theorem saysTooLong_iff
    {content commenter : Text} (something : content ≠ [])
    (someone : commenter ≠ []) (articleId : Int) (world : World) :
    SaysTooLong
        ((createComment articleId content commenter).run exec world).1 ↔
      1000 < byteSize content := by
  have ends := createComment_ends articleId content commenter world
  generalize (createComment articleId content commenter).run exec world =
    outcome at ends ⊢
  cases ends with
  | missing nothing =>
      rcases nothing with noContent | noCommenter
      · exact absurd noContent something
      · exact absurd noCommenter someone
  | tooLong _ _ long => exact iff_of_true rfl long
  | notFound short unknown =>
      refine iff_of_false ?_ short.not_gt
      show message? (failure 404 _) ≠ _
      decide
  | refused short redis database =>
      refine iff_of_false ?_ short.not_gt
      show message? (failure 500 _) ≠ _
      decide
  | created short comment redis database =>
      refine iff_of_false ?_ short.not_gt
      have answer :
          message? (commentCreated comment) =
            some (text "Comment created") :=
        rfl
      show message? (commentCreated comment) ≠ _
      rw [answer]
      decide

/-- Characters decide, unless few of them take more than 1000 bytes. -/
theorem content_limit_iff
    {content commenter : Text} (something : content ≠ [])
    (someone : commenter ≠ []) (articleId : Int) (world : World) :
    (SaysTooLong
          ((createComment articleId content commenter).run exec world).1 ↔
        1000 < content.length) ↔
      ¬ (content.length ≤ 1000 ∧ 1000 < byteSize content) := by
  rw [saysTooLong_iff something someone]
  have enough := length_le_byteSize content
  omega

/-- A comment in ASCII. -/
theorem content_limit_ascii :
    SaysTooLong
        ((createComment 1 (text "well written") (text "reader")).run exec
          (World.initial twoComments (fun _ => []) fun _ => true)).1 ↔
      1000 < (text "well written").length :=
  (content_limit_iff (by decide) (by decide) 1
    (World.initial twoComments (fun _ => []) fun _ => true)).mpr (by decide)

/-- 400 characters of three bytes each are refused. -/
theorem short_content_too_long :
    SaysTooLong
        ((createComment 1 (List.replicate 400 '写') (text "reader")).run exec
          (World.initial twoComments (fun _ => []) fun _ => true)).1 ∧
      ¬ 1000 < (List.replicate 400 '写').length := by
  have size : byteSize (List.replicate 400 '写') = 1200 := by
    decide +kernel
  rw [saysTooLong_iff (by decide) (by decide), size, List.length_replicate]
  decide

end LightningServer.Service
