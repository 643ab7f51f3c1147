/-
The command line program: runs an exchange and prints its score.
-/
import UdpStack.Echo.Exchange

namespace UdpStack.Main

/-- Run an exchange and report it. The result is the exit code. -/
def report (o : Echo.Options) : IO UInt32 := do
  IO.println ("[+] Configured stack at " ++ o.host.text ++ "/" ++ toString o.prefixLen ++ ", echoing")
  match Echo.run o with
  | some (.ok score) =>
    IO.println "[+] Done\n"
    IO.println score.text
    return 0
  | some (.error f) =>
    IO.eprintln ("[-] Failed: " ++ f.message)
    return 1
  | none =>
    IO.eprintln "[-] Failed: out of bounds"
    return 1

end UdpStack.Main

def main (args : List String) : IO UInt32 :=
  match UdpStack.Echo.Options.ofArgs args with
  | .ok o => UdpStack.Main.report o
  | .error f => do
    IO.eprintln ("error: " ++ f.name)
    return 1
