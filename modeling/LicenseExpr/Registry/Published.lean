/-
  Entries of a registry, and the published list of license and exception ids.

  `publishedVersion` is the version of the list, and `publishedLicenses` and
  `publishedExceptions` are its entries in the order of publication, with a
  mark on the ids that the list itself calls deprecated.
-/

namespace LicenseExpr

namespace Registry

/-- A known identifier in its canonical spelling. -/
structure Entry where
  id : String
  /-- Whether the list that the id comes from advises against it. -/
  deprecated : Bool
  deriving DecidableEq

def publishedVersion : String := "3.6"

def publishedLicenses : List Entry :=
  [⟨"0BSD", false⟩, ⟨"AAL", false⟩, ⟨"Abstyles", false⟩, ⟨"Adobe-2006", false⟩,
   ⟨"Adobe-Glyph", false⟩, ⟨"ADSL", false⟩, ⟨"AFL-1.1", false⟩, ⟨"AFL-1.2", false⟩,
   ⟨"AFL-2.0", false⟩, ⟨"AFL-2.1", false⟩, ⟨"AFL-3.0", false⟩, ⟨"Afmparse", false⟩,
   ⟨"AGPL-1.0", true⟩, ⟨"AGPL-1.0-only", false⟩, ⟨"AGPL-1.0-or-later", false⟩, ⟨"AGPL-3.0", true⟩,
   ⟨"AGPL-3.0-only", false⟩, ⟨"AGPL-3.0-or-later", false⟩, ⟨"Aladdin", false⟩, ⟨"AMDPLPA", false⟩,
   ⟨"AML", false⟩, ⟨"AMPAS", false⟩, ⟨"ANTLR-PD", false⟩, ⟨"Apache-1.0", false⟩,
   ⟨"Apache-1.1", false⟩, ⟨"Apache-2.0", false⟩, ⟨"APAFML", false⟩, ⟨"APL-1.0", false⟩,
   ⟨"APSL-1.0", false⟩, ⟨"APSL-1.1", false⟩, ⟨"APSL-1.2", false⟩, ⟨"APSL-2.0", false⟩,
   ⟨"Artistic-1.0", false⟩, ⟨"Artistic-1.0-cl8", false⟩, ⟨"Artistic-1.0-Perl", false⟩,
   ⟨"Artistic-2.0", false⟩, ⟨"Bahyph", false⟩, ⟨"Barr", false⟩, ⟨"Beerware", false⟩,
   ⟨"BitTorrent-1.0", false⟩, ⟨"BitTorrent-1.1", false⟩, ⟨"BlueOak-1.0.0", false⟩,
   ⟨"Borceux", false⟩, ⟨"BSD-1-Clause", false⟩, ⟨"BSD-2-Clause", false⟩,
   ⟨"BSD-2-Clause-Patent", false⟩, ⟨"BSD-3-Clause", false⟩, ⟨"BSD-3-Clause-Attribution", false⟩,
   ⟨"BSD-3-Clause-Clear", false⟩, ⟨"BSD-3-Clause-LBNL", false⟩,
   ⟨"BSD-3-Clause-No-Nuclear-License", false⟩, ⟨"BSD-3-Clause-No-Nuclear-License-2014", false⟩,
   ⟨"BSD-3-Clause-No-Nuclear-Warranty", false⟩, ⟨"BSD-4-Clause", false⟩,
   ⟨"BSD-4-Clause-UC", false⟩, ⟨"BSD-Protection", false⟩, ⟨"BSD-Source-Code", false⟩,
   ⟨"BSL-1.0", false⟩, ⟨"bzip2-1.0.6", false⟩, ⟨"Caldera", false⟩, ⟨"CATOSL-1.1", false⟩,
   ⟨"CC-BY-1.0", false⟩, ⟨"CC-BY-2.0", false⟩, ⟨"CC-BY-2.5", false⟩, ⟨"CC-BY-3.0", false⟩,
   ⟨"CC-BY-4.0", false⟩, ⟨"CC-BY-NC-1.0", false⟩, ⟨"CC-BY-NC-2.0", false⟩,
   ⟨"CC-BY-NC-2.5", false⟩, ⟨"CC-BY-NC-3.0", false⟩, ⟨"CC-BY-NC-4.0", false⟩,
   ⟨"CC-BY-NC-ND-1.0", false⟩, ⟨"CC-BY-NC-ND-2.0", false⟩, ⟨"CC-BY-NC-ND-2.5", false⟩,
   ⟨"CC-BY-NC-ND-3.0", false⟩, ⟨"CC-BY-NC-ND-4.0", false⟩, ⟨"CC-BY-NC-SA-1.0", false⟩,
   ⟨"CC-BY-NC-SA-2.0", false⟩, ⟨"CC-BY-NC-SA-2.5", false⟩, ⟨"CC-BY-NC-SA-3.0", false⟩,
   ⟨"CC-BY-NC-SA-4.0", false⟩, ⟨"CC-BY-ND-1.0", false⟩, ⟨"CC-BY-ND-2.0", false⟩,
   ⟨"CC-BY-ND-2.5", false⟩, ⟨"CC-BY-ND-3.0", false⟩, ⟨"CC-BY-ND-4.0", false⟩,
   ⟨"CC-BY-SA-1.0", false⟩, ⟨"CC-BY-SA-2.0", false⟩, ⟨"CC-BY-SA-2.5", false⟩,
   ⟨"CC-BY-SA-3.0", false⟩, ⟨"CC-BY-SA-4.0", false⟩, ⟨"CC0-1.0", false⟩, ⟨"CDDL-1.0", false⟩,
   ⟨"CDDL-1.1", false⟩, ⟨"CDLA-Permissive-1.0", false⟩, ⟨"CDLA-Sharing-1.0", false⟩,
   ⟨"CECILL-1.0", false⟩, ⟨"CECILL-1.1", false⟩, ⟨"CECILL-2.0", false⟩, ⟨"CECILL-2.1", false⟩,
   ⟨"CECILL-B", false⟩, ⟨"CECILL-C", false⟩, ⟨"ClArtistic", false⟩, ⟨"CNRI-Jython", false⟩,
   ⟨"CNRI-Python", false⟩, ⟨"CNRI-Python-GPL-Compatible", false⟩, ⟨"Condor-1.1", false⟩,
   ⟨"copyleft-next-0.3.0", false⟩, ⟨"copyleft-next-0.3.1", false⟩, ⟨"CPAL-1.0", false⟩,
   ⟨"CPL-1.0", false⟩, ⟨"CPOL-1.02", false⟩, ⟨"Crossword", false⟩, ⟨"CrystalStacker", false⟩,
   ⟨"CUA-OPL-1.0", false⟩, ⟨"Cube", false⟩, ⟨"curl", false⟩, ⟨"D-FSL-1.0", false⟩,
   ⟨"diffmark", false⟩, ⟨"DOC", false⟩, ⟨"Dotseqn", false⟩, ⟨"DSDP", false⟩, ⟨"dvipdfm", false⟩,
   ⟨"ECL-1.0", false⟩, ⟨"ECL-2.0", false⟩, ⟨"eCos-2.0", true⟩, ⟨"EFL-1.0", false⟩,
   ⟨"EFL-2.0", false⟩, ⟨"eGenix", false⟩, ⟨"Entessa", false⟩, ⟨"EPL-1.0", false⟩,
   ⟨"EPL-2.0", false⟩, ⟨"ErlPL-1.1", false⟩, ⟨"EUDatagrid", false⟩, ⟨"EUPL-1.0", false⟩,
   ⟨"EUPL-1.1", false⟩, ⟨"EUPL-1.2", false⟩, ⟨"Eurosym", false⟩, ⟨"Fair", false⟩,
   ⟨"Frameworx-1.0", false⟩, ⟨"FreeImage", false⟩, ⟨"FSFAP", false⟩, ⟨"FSFUL", false⟩,
   ⟨"FSFULLR", false⟩, ⟨"FTL", false⟩, ⟨"GFDL-1.1", true⟩, ⟨"GFDL-1.1-only", false⟩,
   ⟨"GFDL-1.1-or-later", false⟩, ⟨"GFDL-1.2", true⟩, ⟨"GFDL-1.2-only", false⟩,
   ⟨"GFDL-1.2-or-later", false⟩, ⟨"GFDL-1.3", true⟩, ⟨"GFDL-1.3-only", false⟩,
   ⟨"GFDL-1.3-or-later", false⟩, ⟨"Giftware", false⟩, ⟨"GL2PS", false⟩, ⟨"Glide", false⟩,
   ⟨"Glulxe", false⟩, ⟨"gnuplot", false⟩, ⟨"GPL-1.0", true⟩, ⟨"GPL-1.0+", true⟩,
   ⟨"GPL-1.0-only", false⟩, ⟨"GPL-1.0-or-later", false⟩, ⟨"GPL-2.0", true⟩, ⟨"GPL-2.0+", true⟩,
   ⟨"GPL-2.0-only", false⟩, ⟨"GPL-2.0-or-later", false⟩,
   ⟨"GPL-2.0-with-autoconf-exception", true⟩, ⟨"GPL-2.0-with-bison-exception", true⟩,
   ⟨"GPL-2.0-with-classpath-exception", true⟩, ⟨"GPL-2.0-with-font-exception", true⟩,
   ⟨"GPL-2.0-with-GCC-exception", true⟩, ⟨"GPL-3.0", true⟩, ⟨"GPL-3.0+", true⟩,
   ⟨"GPL-3.0-only", false⟩, ⟨"GPL-3.0-or-later", false⟩,
   ⟨"GPL-3.0-with-autoconf-exception", true⟩, ⟨"GPL-3.0-with-GCC-exception", true⟩,
   ⟨"gSOAP-1.3b", false⟩, ⟨"HaskellReport", false⟩, ⟨"HPND", false⟩, ⟨"HPND-sell-variant", false⟩,
   ⟨"IBM-pibs", false⟩, ⟨"ICU", false⟩, ⟨"IJG", false⟩, ⟨"ImageMagick", false⟩, ⟨"iMatix", false⟩,
   ⟨"Imlib2", false⟩, ⟨"Info-ZIP", false⟩, ⟨"Intel", false⟩, ⟨"Intel-ACPI", false⟩,
   ⟨"Interbase-1.0", false⟩, ⟨"IPA", false⟩, ⟨"IPL-1.0", false⟩, ⟨"ISC", false⟩,
   ⟨"JasPer-2.0", false⟩, ⟨"JPNIC", false⟩, ⟨"JSON", false⟩, ⟨"LAL-1.2", false⟩,
   ⟨"LAL-1.3", false⟩, ⟨"Latex2e", false⟩, ⟨"Leptonica", false⟩, ⟨"LGPL-2.0", true⟩,
   ⟨"LGPL-2.0+", true⟩, ⟨"LGPL-2.0-only", false⟩, ⟨"LGPL-2.0-or-later", false⟩,
   ⟨"LGPL-2.1", true⟩, ⟨"LGPL-2.1+", true⟩, ⟨"LGPL-2.1-only", false⟩,
   ⟨"LGPL-2.1-or-later", false⟩, ⟨"LGPL-3.0", true⟩, ⟨"LGPL-3.0+", true⟩,
   ⟨"LGPL-3.0-only", false⟩, ⟨"LGPL-3.0-or-later", false⟩, ⟨"LGPLLR", false⟩, ⟨"Libpng", false⟩,
   ⟨"libpng-2.0", false⟩, ⟨"libtiff", false⟩, ⟨"LiLiQ-P-1.1", false⟩, ⟨"LiLiQ-R-1.1", false⟩,
   ⟨"LiLiQ-Rplus-1.1", false⟩, ⟨"Linux-OpenIB", false⟩, ⟨"LPL-1.0", false⟩, ⟨"LPL-1.02", false⟩,
   ⟨"LPPL-1.0", false⟩, ⟨"LPPL-1.1", false⟩, ⟨"LPPL-1.2", false⟩, ⟨"LPPL-1.3a", false⟩,
   ⟨"LPPL-1.3c", false⟩, ⟨"MakeIndex", false⟩, ⟨"MirOS", false⟩, ⟨"MIT", false⟩, ⟨"MIT-0", false⟩,
   ⟨"MIT-advertising", false⟩, ⟨"MIT-CMU", false⟩, ⟨"MIT-enna", false⟩, ⟨"MIT-feh", false⟩,
   ⟨"MITNFA", false⟩, ⟨"Motosoto", false⟩, ⟨"mpich2", false⟩, ⟨"MPL-1.0", false⟩,
   ⟨"MPL-1.1", false⟩, ⟨"MPL-2.0", false⟩, ⟨"MPL-2.0-no-copyleft-exception", false⟩,
   ⟨"MS-PL", false⟩, ⟨"MS-RL", false⟩, ⟨"MTLL", false⟩, ⟨"Multics", false⟩, ⟨"Mup", false⟩,
   ⟨"NASA-1.3", false⟩, ⟨"Naumen", false⟩, ⟨"NBPL-1.0", false⟩, ⟨"NCSA", false⟩,
   ⟨"Net-SNMP", false⟩, ⟨"NetCDF", false⟩, ⟨"Newsletr", false⟩, ⟨"NGPL", false⟩,
   ⟨"NLOD-1.0", false⟩, ⟨"NLPL", false⟩, ⟨"Nokia", false⟩, ⟨"NOSL", false⟩, ⟨"Noweb", false⟩,
   ⟨"NPL-1.0", false⟩, ⟨"NPL-1.1", false⟩, ⟨"NPOSL-3.0", false⟩, ⟨"NRL", false⟩, ⟨"NTP", false⟩,
   ⟨"Nunit", true⟩, ⟨"OCCT-PL", false⟩, ⟨"OCLC-2.0", false⟩, ⟨"ODbL-1.0", false⟩,
   ⟨"ODC-By-1.0", false⟩, ⟨"OFL-1.0", false⟩, ⟨"OFL-1.1", false⟩, ⟨"OGL-UK-1.0", false⟩,
   ⟨"OGL-UK-2.0", false⟩, ⟨"OGL-UK-3.0", false⟩, ⟨"OGTSL", false⟩, ⟨"OLDAP-1.1", false⟩,
   ⟨"OLDAP-1.2", false⟩, ⟨"OLDAP-1.3", false⟩, ⟨"OLDAP-1.4", false⟩, ⟨"OLDAP-2.0", false⟩,
   ⟨"OLDAP-2.0.1", false⟩, ⟨"OLDAP-2.1", false⟩, ⟨"OLDAP-2.2", false⟩, ⟨"OLDAP-2.2.1", false⟩,
   ⟨"OLDAP-2.2.2", false⟩, ⟨"OLDAP-2.3", false⟩, ⟨"OLDAP-2.4", false⟩, ⟨"OLDAP-2.5", false⟩,
   ⟨"OLDAP-2.6", false⟩, ⟨"OLDAP-2.7", false⟩, ⟨"OLDAP-2.8", false⟩, ⟨"OML", false⟩,
   ⟨"OpenSSL", false⟩, ⟨"OPL-1.0", false⟩, ⟨"OSET-PL-2.1", false⟩, ⟨"OSL-1.0", false⟩,
   ⟨"OSL-1.1", false⟩, ⟨"OSL-2.0", false⟩, ⟨"OSL-2.1", false⟩, ⟨"OSL-3.0", false⟩,
   ⟨"Parity-6.0.0", false⟩, ⟨"PDDL-1.0", false⟩, ⟨"PHP-3.0", false⟩, ⟨"PHP-3.01", false⟩,
   ⟨"Plexus", false⟩, ⟨"PostgreSQL", false⟩, ⟨"psfrag", false⟩, ⟨"psutils", false⟩,
   ⟨"Python-2.0", false⟩, ⟨"Qhull", false⟩, ⟨"QPL-1.0", false⟩, ⟨"Rdisc", false⟩,
   ⟨"RHeCos-1.1", false⟩, ⟨"RPL-1.1", false⟩, ⟨"RPL-1.5", false⟩, ⟨"RPSL-1.0", false⟩,
   ⟨"RSA-MD", false⟩, ⟨"RSCPL", false⟩, ⟨"Ruby", false⟩, ⟨"SAX-PD", false⟩, ⟨"Saxpath", false⟩,
   ⟨"SCEA", false⟩, ⟨"Sendmail", false⟩, ⟨"Sendmail-8.23", false⟩, ⟨"SGI-B-1.0", false⟩,
   ⟨"SGI-B-1.1", false⟩, ⟨"SGI-B-2.0", false⟩, ⟨"SHL-0.5", false⟩, ⟨"SHL-0.51", false⟩,
   ⟨"SimPL-2.0", false⟩, ⟨"SISSL", false⟩, ⟨"SISSL-1.2", false⟩, ⟨"Sleepycat", false⟩,
   ⟨"SMLNJ", false⟩, ⟨"SMPPL", false⟩, ⟨"SNIA", false⟩, ⟨"Spencer-86", false⟩,
   ⟨"Spencer-94", false⟩, ⟨"Spencer-99", false⟩, ⟨"SPL-1.0", false⟩, ⟨"SSPL-1.0", false⟩,
   ⟨"StandardML-NJ", true⟩, ⟨"SugarCRM-1.1.3", false⟩, ⟨"SWL", false⟩, ⟨"TAPR-OHL-1.0", false⟩,
   ⟨"TCL", false⟩, ⟨"TCP-wrappers", false⟩, ⟨"TMate", false⟩, ⟨"TORQUE-1.1", false⟩,
   ⟨"TOSL", false⟩, ⟨"TU-Berlin-1.0", false⟩, ⟨"TU-Berlin-2.0", false⟩,
   ⟨"Unicode-DFS-2015", false⟩, ⟨"Unicode-DFS-2016", false⟩, ⟨"Unicode-TOU", false⟩,
   ⟨"Unlicense", false⟩, ⟨"UPL-1.0", false⟩, ⟨"Vim", false⟩, ⟨"VOSTROM", false⟩,
   ⟨"VSL-1.0", false⟩, ⟨"W3C", false⟩, ⟨"W3C-19980720", false⟩, ⟨"W3C-20150513", false⟩,
   ⟨"Watcom-1.0", false⟩, ⟨"Wsuipa", false⟩, ⟨"WTFPL", false⟩, ⟨"wxWindows", true⟩,
   ⟨"X11", false⟩, ⟨"Xerox", false⟩, ⟨"XFree86-1.1", false⟩, ⟨"xinetd", false⟩, ⟨"Xnet", false⟩,
   ⟨"xpp", false⟩, ⟨"XSkat", false⟩, ⟨"YPL-1.0", false⟩, ⟨"YPL-1.1", false⟩, ⟨"Zed", false⟩,
   ⟨"Zend-2.0", false⟩, ⟨"Zimbra-1.3", false⟩, ⟨"Zimbra-1.4", false⟩, ⟨"Zlib", false⟩,
   ⟨"zlib-acknowledgement", false⟩, ⟨"ZPL-1.1", false⟩, ⟨"ZPL-2.0", false⟩, ⟨"ZPL-2.1", false⟩]

def publishedExceptions : List Entry :=
  [⟨"389-exception", false⟩, ⟨"Autoconf-exception-2.0", false⟩, ⟨"Autoconf-exception-3.0", false⟩,
   ⟨"Bison-exception-2.2", false⟩, ⟨"Bootloader-exception", false⟩,
   ⟨"Classpath-exception-2.0", false⟩, ⟨"CLISP-exception-2.0", false⟩,
   ⟨"DigiRule-FOSS-exception", false⟩, ⟨"eCos-exception-2.0", false⟩,
   ⟨"Fawkes-Runtime-exception", false⟩, ⟨"FLTK-exception", false⟩, ⟨"Font-exception-2.0", false⟩,
   ⟨"freertos-exception-2.0", false⟩, ⟨"GCC-exception-2.0", false⟩, ⟨"GCC-exception-3.1", false⟩,
   ⟨"gnu-javamail-exception", false⟩, ⟨"GPL-3.0-linking-exception", false⟩,
   ⟨"GPL-3.0-linking-source-exception", false⟩, ⟨"GPL-CC-1.0", false⟩,
   ⟨"i2p-gpl-java-exception", false⟩, ⟨"Libtool-exception", false⟩, ⟨"Linux-syscall-note", false⟩,
   ⟨"LLVM-exception", false⟩, ⟨"LZMA-exception", false⟩, ⟨"mif-exception", false⟩,
   ⟨"Nokia-Qt-exception-1.1", true⟩, ⟨"OCaml-LGPL-linking-exception", false⟩,
   ⟨"OCCT-exception-1.0", false⟩, ⟨"OpenJDK-assembly-exception-1.0", false⟩,
   ⟨"openvpn-openssl-exception", false⟩, ⟨"PS-or-PDF-font-exception-20170817", false⟩,
   ⟨"Qt-GPL-exception-1.0", false⟩, ⟨"Qt-LGPL-exception-1.1", false⟩,
   ⟨"Qwt-exception-1.0", false⟩, ⟨"Swift-exception", false⟩, ⟨"u-boot-exception-2.0", false⟩,
   ⟨"Universal-FOSS-exception-1.0", false⟩, ⟨"WxWindows-exception-3.1", false⟩]

end Registry

end LicenseExpr
