/-
  TinyLang.Command.Runtime — what a compiled program needs beside it.

  A compiled program loads the runtime from the directory that it stands in.  The runtime
  reads integers, one from each line of the standard input, and writes values out.
-/

namespace TinyLang.Command

/-- The name of the file that holds a compiled program. -/
def programFile : String := "program.js"

/-- The name of the file that holds the runtime. -/
def runtimeFile : String := "runtime.js"

/-- The lines of the runtime. -/
def runtimeLines : List String := [
  "'use strict';",
  "",
  "// Runtime library for compiled Tiny programs.",
  "",
  "const fs = require('fs');",
  "",
  "const STDIN = 0;",
  "let pending = '';",
  "",
  "function readLine() \x7b",
  "  const chunk = Buffer.alloc(256);",
  "  for (;;) \x7b",
  "    const newline = pending.indexOf('\\n');",
  "    if (newline >= 0) \x7b",
  "      const line = pending.slice(0, newline);",
  "      pending = pending.slice(newline + 1);",
  "      return line;",
  "    \x7d",
  "    let bytes;",
  "    try \x7b",
  "      bytes = fs.readSync(STDIN, chunk, 0, chunk.length, null);",
  "    \x7d catch (err) \x7b",
  "      if (err.code === 'EAGAIN') \x7b",
  "        continue;",
  "      \x7d",
  "      if (err.code !== 'EOF') \x7b",
  "        throw err;",
  "      \x7d",
  "      bytes = 0;",
  "    \x7d",
  "    if (bytes === 0) \x7b",
  "      const line = pending;",
  "      pending = '';",
  "      return line;",
  "    \x7d",
  "    pending += chunk.toString('utf8', 0, bytes);",
  "  \x7d",
  "\x7d",
  "",
  "module.exports = \x7b",
  "  read() \x7b",
  "    const text = readLine().trim();",
  "    const val = text === '' ? NaN : +text;",
  "    // ~~NaN is 0, so non-numbers fail here too",
  "    if (~~val !== val) \x7b",
  "      throw new Error('expected an integer');",
  "    \x7d",
  "    return val;",
  "  \x7d,",
  "  output(value) \x7b",
  "    console.log(value);",
  "  \x7d,",
  "\x7d;"
]

/-- The text of the runtime. -/
def runtimeText : String := String.join (runtimeLines.map (· ++ "\n"))

end TinyLang.Command
