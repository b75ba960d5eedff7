import SourceTexture.Fragment.Basic

/-!
# Condensed fragments

Joining neighbours that belong together.

Scanning leaves a comment in as many pieces as it has words and blanks, and
every blank of an indentation on its own. Condensing drops empty fragments and
joins neighbours of one kind, so that what is left is the coarsest division of
the text that still keeps kinds, line breaks and unresolved words apart.

The work is done from the left: a fragment is added behind text that is
condensed already, and only the latest fragment of that text can be concerned.
Whether the two belong together is decided by their kinds, and the join itself
is left to `Fragment.join`, whose refusal would be passed on.

## Main definitions

* `Fragment.absorb`: A fragment added behind condensed ones.
* `Fragment.condense`: A list of fragments in condensed form.
-/

namespace SourceTexture

namespace Fragment

/-- Adds a fragment behind condensed ones, which are kept latest first. An empty
    one leaves no trace; one of the same mergeable kind as the latest becomes
    part of it. -/
def absorb (done : List Fragment) (f : Fragment) : Except JoinError (List Fragment) :=
  if f.content = [] then .ok done
  else match done with
    | [] => .ok [f]
    | g :: gs =>
      if g.kind = f.kind ∧ f.kind.mergeable then do return (← g.join f) :: gs
      else .ok (f :: g :: gs)

/-- The fragments with neighbours of one mergeable kind joined and empty ones
    dropped, in the same order. A join that is refused ends the work. -/
def condense (fragments : List Fragment) : Except JoinError (List Fragment) := do
  return (← fragments.foldlM absorb []).reverse

end Fragment

end SourceTexture
