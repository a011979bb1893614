import PadScript.Device.Bundle

/-!
# What the device carries

The configuration and the scripts that a device is delivered with.
-/

namespace PadScript.Assets

/-- A text of rows, each ended by a newline. -/
def ofRows (rows : List String) : Text := rows.flatMap fun row => row.toList ++ ['\n']

/-- The configuration. -/
def configRows : List String := [
  "\x7b",
  "  \"profile\": \"pro-controller\",",
  "  \"autorun\": null,",
  "  \"macros\": \x7b",
  "    \"loop\": \"daily.loop.farm\",",
  "    \"menu\": \"common.menu\"",
  "  \x7d,",
  "  \"timing\": \x7b",
  "    \"min_send_interval_ms\": 3,",
  "    \"tick_ms\": 1,",
  "    \"realtime_idle_ms\": 2000,",
  "    \"realtime_tick_ms\": 3",
  "  \x7d",
  "\x7d"]

/-- The scripts that others are made of. -/
def commonRows : List String := [
  "-- Shared building blocks. Jumps from other files use the full name.",
  "",
  "<menu>",
  "X:0.1",
  "0.5",
  "",
  "<back>",
  "B:0.1->0.3->B:0.1",
  "0.3",
  "",
  "<home>",
  "HOME:0.2",
  "1.0"]

/-- The daily route. -/
def loopRows : List String := [
  "-- Repeating farm route. Start with \x7b\"name\":\"loop\",\"loop\":0\x7d to run until",
  "-- stopped, or pass \x7b\"paras\":\x7b\"rounds\":5,\"fast\":true\x7d\x7d to tune it.",
  "",
  "<farm>",
  "DEFAULT>rounds=3",
  "DEFAULT>fast=false",
  "DEFAULT>step=0",
  "[common.home]",
  "A:0.1",
  "1.0",
  "body:",
  "EXEC>step=step+1",
  "[walk]*rounds",
  "[common.back]?!fast",
  "\x7b",
  "  A:0.1",
  "  0.4",
  "\x7d*2",
  "LSTICK@0,100:0.5->~->LSTICK@0,100|B:0.2",
  "",
  "<walk>",
  "LSTICK@100,0:0.3",
  "LSTICK@-100,0:0.3",
  "UP:0.05->DOWN:0.05"]

/-- A file with these rows. -/
def file (rows : List String) : FileTree := .file (Text.toUtf8 (ofRows rows))

/-- A name, as bytes. -/
def name (s : String) : FileName := Text.toUtf8 s.toList

/-- The folder of scripts. -/
def macros : FileTree := .folder [
  (name "common.m", file commonRows),
  (name "daily", .folder [(name "loop.m", file loopRows)])]

/-- The text of the configuration. -/
def configText : Text := ofRows configRows

end PadScript.Assets
