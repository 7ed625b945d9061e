import ReceiptNotes.CommandLine.Arguments

/-! # Help texts

What the program tells about itself.
-/

namespace ReceiptNotes.CommandLine

/-- Lines, each with a line break behind it. -/
def paragraphs (lines : List String) : Text :=
  lines.flatMap fun line => line.toList ++ ['\n']

def versionText : Text := paragraphs ["taskslip 0.1.0"]

def Topic.text : Topic → Text
  | .program => paragraphs [
      "Print markup notes on thermal receipt printers, with a live text preview",
      "",
      "Usage: taskslip <COMMAND>",
      "",
      "Commands:",
      "  notes    Type notes at a prompt and print each one",
      "  preview  Render a file of markup lines as one note without printing",
      "  help     Print this message or the help of the given subcommand(s)",
      "",
      "Options:",
      "  -h, --help     Print help",
      "  -V, --version  Print version"]
  | .notes => paragraphs [
      "Type notes at a prompt and print each one",
      "",
      "Usage: taskslip notes [OPTIONS]",
      "",
      "Options:",
      "      --device <DEVICE>    Printer device path [default: /dev/rfcomm0]",
      "      --tcp <HOST>         Print to a network printer (host or host:port) instead",
      "      --dry-run            Keep jobs in memory instead of printing",
      "      --columns <COLUMNS>  Characters per line",
      "      --profile <FILE>     Printer profile (JSON)",
      "  -h, --help               Print help"]
  | .preview => paragraphs [
      "Render a file of markup lines as one note without printing",
      "",
      "Usage: taskslip preview [OPTIONS] <FILE>",
      "",
      "Arguments:",
      "  <FILE>  File with one markup line per line",
      "",
      "Options:",
      "      --hex                Also dump the job bytes in hex",
      "      --columns <COLUMNS>  Characters per line",
      "      --profile <FILE>     Printer profile (JSON)",
      "  -h, --help               Print help"]
  | .help => paragraphs [
      "Print this message or the help of the given subcommand(s)",
      "",
      "Usage: taskslip help [COMMAND]...",
      "",
      "Arguments:",
      "  [COMMAND]...  Print help for the subcommand(s)"]

end ReceiptNotes.CommandLine
