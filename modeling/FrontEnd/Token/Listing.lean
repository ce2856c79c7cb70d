import FrontEnd.Token

/-!
# Listings of tokens

One line for each token: its place, its kind and its literal, the first two in columns.
-/

namespace FrontEnd.Token

/-- The text with spaces after it, up to a width. A longer text is left as it is. -/
def padded (width : Nat) (text : String) : String :=
  text ++ String.ofList (List.replicate (width - text.length) ' ')

/-- The line of a token. -/
def listingLine (t : Token) : String :=
  padded 8 t.span.place ++ padded 20 t.kind.describe ++ Text.Quoted.encode t.literal ++ "\n"

/-- The lines of the tokens, in their order. -/
def listing (tokens : List Token) : String :=
  String.join (tokens.map listingLine)

end FrontEnd.Token
