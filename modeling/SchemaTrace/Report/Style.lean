/-!
Terminal styles: a text between the sequence that turns a style on and the one that turns it off.
-/
namespace SchemaTrace.Style

def sequence (code : String) : String := "\x1b[" ++ code ++ "m"

def wrap (on off text : String) : String := sequence on ++ text ++ sequence off

def bold (text : String) : String := wrap "1" "0" text
def dimmed (text : String) : String := wrap "2" "0" text
def red (text : String) : String := wrap "31" "39" text
def green (text : String) : String := wrap "32" "39" text
def yellow (text : String) : String := wrap "33" "39" text
def blue (text : String) : String := wrap "34" "39" text
def cyan (text : String) : String := wrap "36" "39" text

end SchemaTrace.Style
