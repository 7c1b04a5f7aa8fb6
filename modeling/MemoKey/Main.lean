import MemoKey.Demo

/-!
# The demonstration as a program

Prints the lines of the demonstration. The exit code is zero if all of them could be made.
-/

def main : IO UInt32 := do
  match MemoKey.Demo.lines with
  | .ok lines =>
    for line in lines do
      IO.println line
    return 0
  | .error _ => return 1
